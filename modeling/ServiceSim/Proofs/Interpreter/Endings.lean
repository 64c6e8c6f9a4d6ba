import ServiceSim.Proofs.Interpreter.Reports
import ServiceSim.Simulation.Request

/-!
# How interpretations end

An observer notes when the interpretation of a process ends, and with what result.  A process ends
at most once, and afterwards it is gone.  So a request that has been accepted is either served by
its process still or its process has ended, and the completion that has been reported for it tells
when and how (`Kernel.Settles`).
-/

namespace ServiceSim

/-- The end of an interpretation, as it has been observed. -/
structure Conclusion where
  /-- The process. -/
  process : ProcessId
  /-- When it ended. -/
  time : SimTime
  /-- The result frame, or the error that ended the interpretation. -/
  result : Except InterpreterError Frame

/-- The endings after a step. -/
def Conclusion.record (d : Deployment) (k : Kernel Environment Activity)
    (endings : List Conclusion) : List Conclusion :=
  match k.running with
  | some (id, a) =>
    match a.advance d k.now id k.world with
    | .ends _ c => endings ++ [⟨id, k.now, c.result⟩]
    | .goes _ => endings
  | none => endings

open Activity

namespace Kernel

variable {d : Deployment} {k k' : Kernel Environment Activity} {id : ProcessId} {a : Activity}
  {requests : List PendingRequest} {endings : List Conclusion}

/-- **Requests are settled by the endings of their processes.**  Who has ended is gone, and every
request is served by its process or has been completed as its process ended. -/
structure Settles (requests : List PendingRequest) (k : Kernel Environment Activity)
    (endings : List Conclusion) : Prop where
  queued : k.Queued
  matched : ∀ r ∈ requests, ∀ r' ∈ requests, r.number = r'.number ↔ r.process = r'.process
  gone : ∀ x ∈ endings, x.process < k.spawned ∧ ∀ p ∈ k.processes, p.1 ≠ x.process
  once : (endings.map Conclusion.process).Nodup
  serves : ∀ r ∈ requests, (∃ b, (r.process, b) ∈ k.processes ∧ b.role = .request r.number) ∨
    ∃ x ∈ endings, x.process = r.process
  served : ∀ p ∈ k.processes, ∀ n, p.2.role = .request n →
    ∃ r ∈ requests, r.number = n ∧ r.process = p.1
  completed : ∀ r ∈ requests, ∀ time result,
    (∃ c, (r.number, c) ∈ k.world.completions ∧ c.time = time ∧ c.result = result) ↔
      ⟨r.process, time, result⟩ ∈ endings
  known : ∀ q ∈ k.world.completions, ∃ r ∈ requests, r.number = q.1

lemma Quiet.settles (h : k.Settles requests endings) (quiet : Quiet (program d) k k') :
    k'.Settles requests endings := by
  refine ⟨quiet.queued h.queued, h.matched, ?_, h.once, ?_, ?_, ?_, ?_⟩
  · rw [quiet.spawned, quiet.processes]
    exact h.gone
  · rw [quiet.processes]
    exact h.serves
  · rw [quiet.processes]
    exact h.served
  · rw [quiet.completions]
    exact h.completed
  · rw [quiet.completions]
    exact h.known

section Turns

variable (h : k.Settles requests endings) (runs : k.running = some (id, a))

include h runs

/-- A request that the process which runs serves. -/
lemma Settles.runner {r : PendingRequest} (hr : r ∈ requests) (hid : r.process = id) :
    a.role = .request r.number := by
  rcases h.serves r hr with ⟨b, hb, hrole⟩ | ⟨x, hx, hxid⟩
  · have hsame := h.queued.joined.order.unique hb (running_mem runs) hid
    injection hsame with _ hsame
    exact hsame ▸ hrole
  · exact absurd (hid.symm.trans hxid.symm) ((h.gone x hx).2 _ (running_mem runs))

/-- An interpretation that goes on settles nothing. -/
lemma Turned.settles_goes {turn : Turn Environment Activity} {b : Activity}
    (turned : Turned k k' id turn) (queued : k'.Queued) (goesOn : turn.next.goesOn id = [(id, b)])
    (role : b.role = a.role) (completions : turn.world.completions = k.world.completions)
    (spawned : ∀ c ∈ turn.spawned, ∀ n, c.role ≠ .request n) : k'.Settles requests endings := by
  have hmem : ∀ p ∈ k'.processes, p = (id, b) ∨ p ∈ newborn k.spawned turn.spawned ∨
      p ∈ k.bystanders := by
    intro p hp
    rw [turned.processes.mem_iff, goesOn, List.mem_append, List.mem_append, List.mem_singleton,
      or_assoc] at hp
    exact hp
  refine ⟨queued, h.matched, fun x hx => ⟨?_, fun p hp => ?_⟩, h.once, fun r hr => ?_,
    fun p hp n hn => ?_, ?_, ?_⟩
  · rw [turned.spawned]
    exact Nat.lt_add_right _ (h.gone x hx).1
  · rcases hmem p hp with rfl | hp | hp
    · exact (h.gone x hx).2 (id, a) (running_mem runs)
    · exact Nat.ne_of_gt ((h.gone x hx).1.trans_le (mem_newborn hp).1)
    · exact (h.gone x hx).2 p (mem_processes_of_bystanders runs hp)
  · rcases h.serves r hr with ⟨c, hc, hrole⟩ | hended
    · left
      rw [processes_eq runs, List.mem_cons] at hc
      rcases hc with hc | hc
      · injection hc with hid hc
        refine ⟨b, ?_, role.trans (hc ▸ hrole)⟩
        rw [turned.processes.mem_iff, goesOn, hid]
        exact List.mem_cons_self
      · exact ⟨c, turned.processes.mem_iff.mpr (List.mem_append_right _ hc), hrole⟩
    · exact .inr hended
  · rcases hmem p hp with rfl | hp | hp
    · exact h.served (id, a) (running_mem runs) n (role.symm.trans hn)
    · exact absurd hn (spawned _ (mem_newborn hp).2.2 n)
    · exact h.served p (mem_processes_of_bystanders runs hp) n hn
  · rw [turned.world, completions]
    exact h.completed
  · rw [turned.world, completions]
    exact h.known

/-- **A request is completed when its process ends**, and as it ends. -/
lemma Turned.settles_ends {env : Environment} {c : Completion}
    (turned : Turned k k' id (a.report env c)) (queued : k'.Queued) (time : c.time = k.now)
    (completions : env.completions = k.world.completions) :
    k'.Settles requests (endings ++ [⟨id, k.now, c.result⟩]) := by
  have hmem : ∀ p, p ∈ k'.processes ↔ p ∈ k.bystanders := by
    intro p
    rw [turned.processes.mem_iff, report_ends.1, report_ends.2]
    simp [Next.goesOn, newborn]
  have hself := h.queued.joined.order.bystanders runs
  have hcompleted : ∀ r ∈ requests, ∀ c', (r.number, c') ∈ k'.world.completions ↔
      (r.number, c') ∈ k.world.completions ∨ r.process = id ∧ c' = c := by
    intro r hr c'
    rw [turned.world]
    rcases report_completions a env c with ⟨n, hrole, hreport⟩ | ⟨hrole, hreport⟩
    · obtain ⟨r', hr', rfl, hid⟩ := h.served _ (running_mem runs) n hrole
      rw [hreport, completions, List.mem_cons, Prod.mk.injEq, h.matched r hr r' hr', hid, or_comm]
    · rw [hreport, completions]
      refine (or_iff_left fun hr' => ?_).symm
      exact hrole _ (h.runner runs hr hr'.1)
  refine ⟨queued, h.matched, ?_, ?_, fun r hr => ?_, fun p hp n hn => ?_, fun r hr t result => ?_,
    fun q hq => ?_⟩
  · intro x hx
    rw [turned.spawned, report_ends.1]
    rcases List.mem_append.mp hx with hx | hx
    · refine ⟨(h.gone x hx).1, fun p hp => (h.gone x hx).2 p ?_⟩
      exact mem_processes_of_bystanders runs ((hmem p).mp hp)
    · rw [List.mem_singleton.mp hx]
      exact ⟨hself.1, fun p hp => (hself.2.2 p ((hmem p).mp hp)).1⟩
  · rw [List.map_append, List.map_singleton, List.nodup_append]
    refine ⟨h.once, List.nodup_singleton _, fun i hi j hj => ?_⟩
    obtain ⟨x, hx, rfl⟩ := List.mem_map.mp hi
    rw [List.mem_singleton.mp hj]
    exact ((h.gone x hx).2 _ (running_mem runs)).symm
  · rcases h.serves r hr with ⟨b, hb, hrole⟩ | ⟨x, hx, hxid⟩
    · rw [processes_eq runs, List.mem_cons] at hb
      rcases hb with hb | hb
      · injection hb with hid _
        exact .inr ⟨_, List.mem_append_right _ List.mem_cons_self, hid.symm⟩
      · exact .inl ⟨b, (hmem _).mpr hb, hrole⟩
    · exact .inr ⟨x, List.mem_append_left _ hx, hxid⟩
  · exact h.served p (mem_processes_of_bystanders runs ((hmem p).mp hp)) n hn
  · rw [List.mem_append, List.mem_singleton, ← h.completed r hr, Conclusion.mk.injEq]
    constructor
    · rintro ⟨c', hc', rfl, rfl⟩
      rcases (hcompleted r hr c').mp hc' with hold | ⟨hid, rfl⟩
      · exact .inl ⟨c', hold, rfl, rfl⟩
      · exact .inr ⟨hid, time, rfl⟩
    · rintro (⟨c', hold, rfl, rfl⟩ | ⟨hid, rfl, rfl⟩)
      · exact ⟨c', (hcompleted r hr c').mpr (.inl hold), rfl, rfl⟩
      · exact ⟨c, (hcompleted r hr c).mpr (.inr ⟨hid, rfl⟩), time, rfl⟩
  · rw [turned.world] at hq
    rcases report_completions a env c with ⟨n, hrole, hreport⟩ | ⟨-, hreport⟩
    · rw [hreport, completions, List.mem_cons] at hq
      rcases hq with rfl | hq
      · obtain ⟨r, hr, hn, -⟩ := h.served _ (running_mem runs) n hrole
        exact ⟨r, hr, hn⟩
      · exact h.known q hq
    · rw [hreport, completions] at hq
      exact h.known q hq

end Turns

/-- **Every step settles the request whose process ends in it**, and no other. -/
theorem step_settles {stop : Option SimTime} (h : k.Settles requests endings)
    (hstep : k.step (program d) stop = .goes k') :
    k'.Settles requests (Conclusion.record d k endings) := by
  have hqueued := step_queued h.queued hstep
  rcases step_cases h.queued.joined.order hstep with quiet | ⟨id, a, runs, turned⟩
  · rw [Conclusion.record, quiet.idle]
    exact quiet.settles h
  · have hsettled := h.queued.joined.settled _ (running_mem runs)
    have hspawned := turn_spawned_role d k.now id k.world hsettled
    rw [Conclusion.record, runs]
    dsimp only
    change Turned k k' id (a.turn d k.now id k.world) at turned
    unfold turn at turned hspawned
    rcases advance_or_ends d k.now id k.world hsettled with
      ⟨turn, b, hgoes, hnext, hrole, hsame⟩ | ⟨env, c, hends, htime, hsame⟩
    · rw [hgoes] at turned hspawned ⊢
      exact turned.settles_goes h runs hqueued hnext hrole hsame hspawned
    · rw [hends] at turned ⊢
      exact turned.settles_ends h runs hqueued htime hsame

/-! ## Between runs -/

/-- Before anything happens there is nothing to settle. -/
lemma initial_settles {env : Environment} (completions : env.completions = [])
    (queued : (Kernel.initial env : Kernel Environment Activity).Queued) :
    (Kernel.initial env).Settles [] [] := by
  refine ⟨queued, by simp, by simp, List.nodup_nil, by simp,
    by simp [Kernel.initial, processes, agenda, others, appointed], by simp, ?_⟩
  change ∀ q ∈ env.completions, _
  simp [completions]

/-- Logging, and whatever else does not concern processes, settles nothing. -/
lemma Settles.of_steady (h : k.Settles requests endings) {f : Environment → Environment}
    (steady : k.world.Steady (f k.world)) : (k.mapWorld f).Settles requests endings := by
  refine ⟨mapWorld_queued h.queued steady, h.matched, h.gone, h.once, h.serves, h.served, ?_, ?_⟩
  · change ∀ r ∈ requests, ∀ time result, (∃ c, (r.number, c) ∈ (f k.world).completions ∧ _) ↔ _
    rw [steady.completions]
    exact h.completed
  · change ∀ q ∈ (f k.world).completions, _
    rw [steady.completions]
    exact h.known

/-- The processes of the requests have been spawned. -/
lemma Settles.spawned (h : k.Settles requests endings) {r : PendingRequest} (hr : r ∈ requests) :
    r.process < k.spawned := by
  rcases h.serves r hr with ⟨b, hb, -⟩ | ⟨x, hx, hid⟩
  · exact h.queued.joined.order.counted _ hb
  · exact hid ▸ (h.gone x hx).1

/-- **A request is accepted with a process of its own.** -/
lemma spawn_settles (h : k.Settles requests endings) {r : PendingRequest}
    (fresh : ∀ r' ∈ requests, r'.number ≠ r.number) (process : r.process = k.spawned)
    (awake : a.Awake) (role : a.role = .request r.number) :
    (k.spawn a).Settles (requests ++ [r]) endings := by
  have hmem : ∀ p, p ∈ (k.spawn a).processes ↔ p = (r.process, a) ∨ p ∈ k.processes := by
    intro p
    rw [(spawn_processes a k).mem_iff, List.mem_cons, process]
  have hrequests : ∀ r', r' ∈ requests ++ [r] → r' ∈ requests ∨ r' = r := fun r' hr' =>
    (List.mem_append.mp hr').imp_right List.mem_singleton.mp
  refine ⟨spawn_queued h.queued awake role, ?_, ?_, h.once, ?_, ?_, ?_, ?_⟩
  · intro r₁ hr₁ r₂ hr₂
    have hother : ∀ r' ∈ requests, r'.process ≠ r.process := fun r' hr' =>
      process ▸ Nat.ne_of_lt (h.spawned hr')
    rcases hrequests r₁ hr₁ with hold₁ | rfl <;> rcases hrequests r₂ hr₂ with hold₂ | rfl
    · exact h.matched r₁ hold₁ r₂ hold₂
    · exact iff_of_false (fresh r₁ hold₁) (hother r₁ hold₁)
    · exact iff_of_false (fresh r₂ hold₂).symm (hother r₂ hold₂).symm
    · exact iff_of_true rfl rfl
  · intro x hx
    refine ⟨Nat.lt_succ_of_lt (h.gone x hx).1, fun p hp => ?_⟩
    rcases (hmem p).mp hp with rfl | hp
    · exact process ▸ Nat.ne_of_gt (h.gone x hx).1
    · exact (h.gone x hx).2 p hp
  · intro r' hr'
    rcases hrequests r' hr' with hr' | rfl
    · refine (h.serves r' hr').imp_left ?_
      rintro ⟨b, hb, hrole⟩
      exact ⟨b, (hmem _).mpr (.inr hb), hrole⟩
    · exact .inl ⟨a, (hmem _).mpr (.inl rfl), role⟩
  · intro p hp n hn
    rcases (hmem p).mp hp with rfl | hp
    · exact ⟨r, List.mem_append_right _ List.mem_cons_self, by rw [role] at hn; injection hn, rfl⟩
    · obtain ⟨r', hr', hserves⟩ := h.served p hp n hn
      exact ⟨r', List.mem_append_left _ hr', hserves⟩
  · intro r' hr' time result
    rcases hrequests r' hr' with hr' | rfl
    · exact h.completed r' hr' time result
    · refine iff_of_false ?_ fun hx => ?_
      · rintro ⟨c, hc, -⟩
        obtain ⟨r₁, hr₁, hn⟩ := h.known _ hc
        exact fresh r₁ hr₁ hn
      · exact absurd process (Nat.ne_of_lt (h.gone _ hx).1)
  · intro q hq
    obtain ⟨r', hr', hn⟩ := h.known q hq
    exact ⟨r', List.mem_append_left _ hr', hn⟩

end Kernel

end ServiceSim

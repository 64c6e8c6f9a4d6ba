import ServiceSim.Proofs.Evaluation.Forecast

/-!
# Runs come to what is foreseen

Every step of a run keeps its forecast.  A step that forks extends it by the children, which get the
endings that the evaluator gives them, and changes it for nobody else (`step_foreseen`).  When no
process is left that could go on, all requests have ended as foreseen (`run_foreseen`).
-/

namespace ServiceSim.Kernel

open Activity Evaluator

variable {d : Deployment} {rates : ResourceKey → Option Float} {total : Nat} {F F' : Forecast}
  {k k' : Kernel Environment Activity} {id : ProcessId} {a b : Activity}
  {turn : Turn Environment Activity} {env : Environment} {c : Completion}

/-! ## Going on -/

lemma mem_bystanders_of_others {x : Appointment Activity} (hx : x ∈ k.others) :
    (x.process, x.task) ∈ k.bystanders :=
  List.mem_append_left _ (List.mem_map.mpr ⟨x, hx, rfl⟩)

/-- A turn of a process that goes on by itself with the same ending. -/
lemma Turned.foreseen_goes (h : k.Foreseen d rates total F) (runs : k.running = some (id, a))
    (turned : Turned k k' id turn) (queued : k'.Queued) (disciplined : k'.Disciplined)
    (delays : turn.world.resources.Delays rates) (woken : turn.woken = [])
    (spawned : turn.spawned = []) (hb : b.Deterministic) (joins : ¬ b.Joins)
    (role : b.role = a.role) {time : SimTime}
    (next : turn.next.appointments id k.now = [⟨id, b, time⟩]) (stays : turn.next.waiting id = [])
    (ending : F.ending id = b.ending d rates time)
    (barriers : ∀ o, o ≠ id → turn.world.barrier o = k.world.barrier o)
    (completions : turn.world.completions = k.world.completions) :
    k'.Foreseen d rates total F := by
  have hold : k.processes = (id, a) :: k.bystanders := processes_eq runs
  have hagenda : k'.agenda.Perm (⟨id, b, time⟩ :: k.others) := by
    have := turned.agenda
    rw [next, woken, spawned] at this
    simpa [appointed, newborn] using this
  have hblocked : k'.blocked = k.blocked := by
    rw [turned.blocked, stays, woken]
    simp
  have hperm : k'.processes.Perm ((id, b) :: k.bystanders) :=
    (hagenda.map fun x : Appointment Activity => (x.process, x.task)).append
      (List.Perm.of_eq hblocked)
  have hby : ∀ q ∈ k.bystanders, q ∈ k.processes := fun q => mem_processes_of_bystanders runs
  have hself := running_mem runs
  have hspawned : k'.spawned = k.spawned := by
    rw [turned.spawned, spawned]
    rfl
  have hjoins : ∀ q ∈ k'.processes, q.2.Joins → q ∈ k.bystanders := by
    intro q hq hq'
    rcases List.mem_cons.mp (hperm.mem_iff.mp hq) with rfl | hq
    · exact absurd hq' joins
    · exact hq
  have hbarrier : ∀ q ∈ k.bystanders, k'.world.barrier q.1 = k.world.barrier q.1 := fun q hq =>
    turned.world ▸ barriers q.1 (h.queued.joined.order.bystander_ne runs hq)
  refine ⟨queued, disciplined, turned.world ▸ delays, ?_, ?_, ?_, ?_, ?_, ?_, ?_, ?_⟩
  · intro p hp
    rcases List.mem_cons.mp (hperm.mem_iff.mp hp) with rfl | hp
    · exact hb
    · exact h.deterministic p (hby p hp)
  · intro x hx hnot
    rcases List.mem_cons.mp (hagenda.mem_iff.mp hx) with rfl | hx
    · exact ending
    · exact h.appointed x (mem_agenda_of_others hx) hnot
  · intro q hq hqjoins
    have hq' := hjoins q hq hqjoins
    refine (h.awaits q (hby q hq') hqjoins).mono (fun _ _ => rfl) rfl rfl rfl
      (le_of_eq turned.now.symm) (le_of_eq hspawned.symm) ?_ ?_ ?_
    · intro p hp hrole
      rw [hold] at hp
      rcases List.mem_cons.mp hp with rfl | hp
      · exact .inl ⟨(id, b), hperm.mem_iff.mpr List.mem_cons_self, rfl, role.trans hrole⟩
      · exact .inl ⟨p, hperm.mem_iff.mpr (List.mem_cons_of_mem _ hp), rfl, hrole⟩
    · rw [hbarrier q hq']
      exact fun h => h
    · rw [hbarrier q hq']
      exact .inl
  · intro p hp o hrole
    rcases List.mem_cons.mp (hperm.mem_iff.mp hp) with rfl | hp
    · exact h.children (id, a) hself o (role.symm.trans hrole)
    · exact h.children p (hby p hp) o hrole
  · intro x hx hxjoins
    rcases List.mem_cons.mp (hagenda.mem_iff.mp hx) with rfl | hx
    · exact absurd hxjoins joins
    · have hxq := hbarrier _ (mem_bystanders_of_others hx)
      rw [turned.now, hxq]
      exact h.prompt x (mem_agenda_of_others hx) hxjoins
  · intro p hp n hrole
    rcases List.mem_cons.mp (hperm.mem_iff.mp hp) with rfl | hp
    · exact h.numbered (id, a) hself n (role.symm.trans hrole)
    · exact h.numbered p (hby p hp) n hrole
  · rw [turned.world, completions, hspawned]
    exact h.completions
  · rw [turned.world, completions]
    intro n hn
    rcases h.reported n hn with ⟨p, hp, hrole⟩ | hdone
    · rw [hold] at hp
      rcases List.mem_cons.mp hp with rfl | hp
      · exact .inl ⟨(id, b), hperm.mem_iff.mpr List.mem_cons_self, role.trans hrole⟩
      · exact .inl ⟨p, hperm.mem_iff.mpr (List.mem_cons_of_mem _ hp), hrole⟩
    · exact .inr hdone

/-- A turn of a process that waits for its children. -/
lemma Turned.foreseen_awaits (h : k.Foreseen d rates total F) (runs : k.running = some (id, a))
    (turned : Turned k k' id ⟨k.world.setBarrier id ((k.world.barrier id).await id), [], [],
      .block a⟩) (queued : k'.Queued) (disciplined : k'.Disciplined) :
    k'.Foreseen d rates total F := by
  have hold : k.processes = (id, a) :: k.bystanders := processes_eq runs
  have hagenda : k'.agenda.Perm k.others := by
    simpa [appointed, newborn, Next.appointments] using turned.agenda
  have hperm : k'.processes.Perm k.processes := by
    rw [hold]
    exact turned.processes
  have hspawned : k'.spawned = k.spawned := turned.spawned
  have hbarrier : ∀ o, (k'.world.barrier o).remaining = (k.world.barrier o).remaining ∧
      (k'.world.barrier o).failures = (k.world.barrier o).failures := by
    intro o
    rw [turned.world, Environment.barrier_setBarrier]
    split_ifs with ho
    · rw [ho]
      exact ⟨rfl, rfl⟩
    · exact ⟨rfl, rfl⟩
  have hcompletions : k'.world.completions = k.world.completions := by
    rw [turned.world]
    rfl
  have hdelays : k'.world.resources.Delays rates := by
    rw [turned.world]
    exact h.delays
  refine ⟨queued, disciplined, hdelays, ?_, ?_, ?_, ?_, ?_, ?_, ?_, ?_⟩
  · intro p hp
    exact h.deterministic p (hperm.mem_iff.mp hp)
  · intro x hx hnot
    exact h.appointed x (mem_agenda_of_others (hagenda.mem_iff.mp hx)) hnot
  · intro q hq hqjoins
    refine (h.awaits q (hperm.mem_iff.mp hq) hqjoins).mono (fun _ _ => rfl) rfl rfl rfl
      (le_of_eq turned.now.symm) (le_of_eq hspawned.symm) ?_ ?_ ?_
    · intro p hp hrole
      exact .inl ⟨p, hperm.mem_iff.mpr hp, rfl, hrole⟩
    · rw [(hbarrier q.1).2]
      exact fun h => h
    · rw [(hbarrier q.1).2]
      exact .inl
  · intro p hp o hrole
    exact h.children p (hperm.mem_iff.mp hp) o hrole
  · intro x hx hxjoins
    rw [turned.now, (hbarrier x.process).1]
    exact h.prompt x (mem_agenda_of_others (hagenda.mem_iff.mp hx)) hxjoins
  · intro p hp n hrole
    exact h.numbered p (hperm.mem_iff.mp hp) n hrole
  · rw [hcompletions, hspawned]
    exact h.completions
  · intro n hn
    rw [hcompletions]
    rcases h.reported n hn with ⟨p, hp, hrole⟩ | hdone
    · exact .inl ⟨p, hperm.mem_iff.mpr hp, hrole⟩
    · exact .inr hdone

/-! ## Ends -/

lemma Completion_ending_time (c : Completion) : c.ending.time = c.time := by
  rw [Completion.ending]
  cases c.result <;> rfl

/-- A report leaves the barriers of strangers alone, and tells the owner of a failure. -/
lemma report_barriers (a : Activity) (env : Environment) (c : Completion) :
    (∀ o, a.role ≠ .synchronous o → (a.report env c).world.barrier o = env.barrier o) ∧
      (∀ o, a.role = .synchronous o → (((a.report env c).world.barrier o).failures ≠ [] ↔
        (env.barrier o).failures ≠ [] ∨ c.ending.isFailed = true)) ∧
      ∀ w ∈ (a.report env c).woken, ∃ o, a.role = .synchronous o ∧
        w ∈ (env.barrier o).waiters := by
  rcases report_spec a env c with ⟨hrole, hbarriers, hwoken⟩ | ⟨owner, failure, hrole, hworld, hwoken,
    hresult⟩
  · refine ⟨fun o _ => Environment.barrier_congr hbarriers o, fun o ho => absurd ho (hrole o), ?_⟩
    rw [hwoken]
    simp
  · obtain ⟨-, hfailures, hwaiters⟩ := arrive_spec failure (env.barrier owner)
    have hfailed : failure ≠ none ↔ c.ending.isFailed = true := by
      rw [Ne, hresult, Completion.ending]
      cases c.result <;> simp [Ending.isFailed]
    refine ⟨?_, ?_, ?_⟩
    · intro o ho
      rw [hworld, Environment.barrier_setBarrier, if_neg]
      rintro rfl
      exact ho hrole
    · intro o ho
      rw [hrole] at ho
      injection ho with ho
      rw [← ho, hworld, Environment.barrier_setBarrier, if_pos rfl, hfailures, ← hfailed]
      cases failure <;> simp
    · intro w hw
      refine ⟨owner, hrole, ?_⟩
      rw [hwoken] at hw
      rcases hwaiters with ⟨-, -, hall⟩ | ⟨-, -, hnone⟩
      · exact hall ▸ hw
      · rw [hnone] at hw
        cases hw

section Ends

variable (h : k.Foreseen d rates total F) (runs : k.running = some (id, a))
  (turned : Turned k k' id (a.report env c)) (ending : F.ending id = some c.ending)
  (time : c.time = k.now) (childless : ∀ p ∈ k.processes, p.2.role ≠ .synchronous id)
  (barriers : ∀ o, o ≠ id → env.barrier o = k.world.barrier o)
  (completions : env.completions = k.world.completions)

include runs turned in
/-- Whoever has been there is still there, but for the process that ends. -/
lemma Turned.ends_stays {p : ProcessId × Activity} (hp : p ∈ k.processes) :
    p = (id, a) ∨ p ∈ k'.processes := by
  rw [processes_eq runs] at hp
  exact (List.mem_cons.mp hp).imp_right turned.ends_processes.mem_iff.mpr

include turned barriers in
/-- What is known at a barrier of failures is what has been known, and the failure of a child that
ends. -/
lemma Turned.ends_failures {o : ProcessId} (ho : o ≠ id) : (k'.world.barrier o).failures ≠ [] ↔
    (k.world.barrier o).failures ≠ [] ∨ a.role = .synchronous o ∧ c.ending.isFailed = true := by
  obtain ⟨hstranger, howner, -⟩ := report_barriers a env c
  rw [turned.world, ← barriers o ho]
  by_cases hrole : a.role = .synchronous o
  · rw [howner o hrole]
    exact or_congr_right (and_iff_right hrole).symm
  · rw [hstranger o hrole]
    exact (or_iff_left fun howned => hrole howned.1).symm

include h runs turned barriers childless in
/-- Whoever goes on after the end of a process has an appointment as before, or is its owner, who
has been blocked. -/
lemma Turned.ends_agenda {x : Appointment Activity} (hx : x ∈ k'.agenda) : x ∈ k.others ∨
    (x.process, x.task) ∈ k.blocked ∧ x.time = k.now ∧ a.role = .synchronous x.process := by
  rcases turned.mem_agenda report_ends.1 hx with hx | ⟨q, hq, hmem, rfl⟩ | hx
  · rw [report_ends.2] at hx
    cases hx
  · obtain ⟨o, ho, hwaiter⟩ := (report_barriers a env c).2.2 q.1 hmem
    have hother : o ≠ id := by
      rintro rfl
      exact childless _ (running_mem runs) ho
    rw [barriers o hother] at hwaiter
    obtain ⟨hqo, -⟩ := h.queued.joined.waiter o q.1 hwaiter
    exact .inr ⟨hq, rfl, hqo ▸ ho⟩
  · exact .inl hx

include h runs turned ending time barriers in
/-- Whoever waits for its children goes on waiting, and learns of the failure of one that ends. -/
lemma Turned.ends_awaits {q : ProcessId × Activity} (hq : q ∈ k'.processes) (hqjoins : q.2.Joins) :
    F.Awaits d rates k' q := by
  obtain ⟨hqk, hqid⟩ := turned.ends_mem runs h.queued.joined.order hq
  have hfailures := turned.ends_failures barriers hqid
  refine (h.awaits q hqk hqjoins).mono (fun _ _ => rfl) rfl rfl rfl (le_of_eq turned.now.symm)
    (le_of_eq turned.ends_spawned.symm) ?_ (fun hfailed => hfailures.mpr (.inl hfailed)) ?_
  · intro p hp hrole
    rcases turned.ends_stays runs hp with rfl | hp
    · refine .inr ⟨c.ending, ending, ?_, fun hfailed => hfailures.mpr (.inr ⟨hrole, hfailed⟩)⟩
      rw [turned.now, Completion_ending_time, time]
    · exact .inl ⟨p, hp, rfl, hrole⟩
  · intro hfailed
    rcases hfailures.mp hfailed with hold | ⟨hrole, hf⟩
    · exact .inl hold
    · exact .inr ⟨id, h.children (id, a) (running_mem runs) q.1 hrole, c.ending, ending, hf⟩

include h runs turned ending time childless barriers in
/-- The owner whose last child ends goes on at once. -/
lemma Turned.ends_prompt (queued : k'.Queued) {x : Appointment Activity} (hx : x ∈ k'.agenda)
    (hxjoins : x.task.Joins) : x.time ≤ k'.now ∧
      ((k'.world.barrier x.process).remaining = 0 → ∀ ends,
        (F.children x.process).mapM F.ending = some ends →
          latest (F.since x.process) ends = x.time) := by
  have hagenda := turned.ends_agenda h runs childless barriers hx
  have hxtime : x.time = k.now := by
    rcases hagenda with hx | ⟨-, hx, -⟩
    · exact h.now_of_joins (mem_agenda_of_others hx) hxjoins
    · exact hx
  have hxmem : (x.process, x.task) ∈ k'.processes := (mem_processes _).mpr (.inl ⟨x.time, hx⟩)
  refine ⟨le_of_eq (hxtime.trans turned.now.symm), fun hopen ends hends => ?_⟩
  by_cases hrole : a.role = .synchronous x.process
  · -- The process that ends is the last child.
    have hnone : ∀ p ∈ k'.processes, p.2.role ≠ .synchronous x.process := by
      rw [← forkedBy_eq_zero, ← queued.joined.missing _ hxmem hxjoins]
      exact hopen
    have hawaits := turned.ends_awaits h runs ending time barriers hxmem hxjoins
    have hlast : c.ending.time = k'.now := by
      rw [turned.now, Completion_ending_time, time]
    rw [hxtime, ← turned.now]
    exact hawaits.latest_eq hnone (h.children (id, a) (running_mem runs) _ hrole) ending hlast hends
  · rcases hagenda with hx | ⟨-, -, hx⟩
    · have hxid := h.queued.joined.order.bystander_ne runs (mem_bystanders_of_others hx)
      refine (h.prompt x (mem_agenda_of_others hx) hxjoins).2 ?_ ends hends
      rw [← barriers _ hxid, ← (report_barriers a env c).1 _ hrole, ← turned.world]
      exact hopen
    · exact absurd hx hrole

include h runs turned ending completions in
/-- A completion is reported as foreseen. -/
lemma Turned.ends_completions : ∀ e ∈ k'.world.completions,
    e.1 < k'.spawned ∧ F.ending e.1 = some e.2.ending := by
  have hself := running_mem runs
  rw [turned.world, turned.ends_spawned]
  rcases report_completions a env c with ⟨n, hrole, hreport⟩ | ⟨-, hreport⟩
  · have hn : id = n := h.numbered (id, a) hself n hrole
    rw [hreport, completions]
    intro e he
    rcases List.mem_cons.mp he with rfl | he
    · exact ⟨hn ▸ h.queued.joined.order.counted _ hself, hn ▸ ending⟩
    · exact h.completions e he
  · rw [hreport, completions]
    exact h.completions

include h runs turned completions in
/-- A request is under way, or its completion has been reported. -/
lemma Turned.ends_reported {n : Nat} (hn : n < total) :
    (∃ p ∈ k'.processes, p.2.role = .request n) ∨ ∃ e, (n, e) ∈ k'.world.completions := by
  rw [turned.world]
  rcases h.reported n hn with ⟨p, hp, hrole⟩ | ⟨e, he⟩
  · rcases turned.ends_stays runs hp with rfl | hp
    · rcases report_completions a env c with ⟨m, hrole', hreport⟩ | ⟨hnone, -⟩
      · rw [hrole] at hrole'
        injection hrole' with hm
        rw [hreport, hm]
        exact .inr ⟨c, List.mem_cons_self⟩
      · exact absurd hrole (hnone n)
    · exact .inl ⟨p, hp, hrole⟩
  · refine .inr ⟨e, ?_⟩
    rcases report_completions a env c with ⟨m, -, hreport⟩ | ⟨-, hreport⟩
    · rw [hreport, completions]
      exact List.mem_cons_of_mem _ he
    · rw [hreport, completions]
      exact he

include h runs turned ending time childless barriers completions in
/-- A turn of a process that ends as foreseen. -/
lemma Turned.foreseen_ends (queued : k'.Queued) (disciplined : k'.Disciplined)
    (resources : env.resources = k.world.resources) : k'.Foreseen d rates total F := by
  have hmem : ∀ p ∈ k'.processes, p ∈ k.processes := fun p hp =>
    (turned.ends_mem runs h.queued.joined.order hp).1
  refine ⟨queued, disciplined, ?_, ?_, ?_, ?_, ?_, ?_, ?_, ?_, ?_⟩
  · rw [turned.world, report_resources, resources]
    exact h.delays
  · exact fun p hp => h.deterministic p (hmem p hp)
  · intro x hx hnot
    rcases turned.ends_agenda h runs childless barriers hx with hx | ⟨hx, -⟩
    · exact h.appointed x (mem_agenda_of_others hx) hnot
    · exact absurd (h.blocked_joins hx) hnot
  · exact fun q hq hqjoins => turned.ends_awaits h runs ending time barriers hq hqjoins
  · exact fun p hp o hrole => h.children p (hmem p hp) o hrole
  · exact fun x hx hxjoins =>
      turned.ends_prompt h runs ending time childless barriers queued hx hxjoins
  · exact fun p hp n hrole => h.numbered p (hmem p hp) n hrole
  · exact turned.ends_completions h runs ending completions
  · exact fun n hn => turned.ends_reported h runs completions hn

end Ends

/-! ## Forks -/

section Forks

variable {asynchronous synchronous : List Behavior} (h : k.Foreseen d rates total F)
  (runs : k.running = some (id, a)) (forked : Forked k k' id a b asynchronous synchronous)
  (hF : F' = F.forks d rates k.now id k.spawned (b.children id asynchronous synchronous))

include forked hF

/-- The owner of a fork waits for its synchronous children. -/
lemma Forked.owner_awaits (hid : id < k.spawned) (ending : F.ending id =
      ((b.children id asynchronous synchronous).filter (·.role = .synchronous id)).mapM
        (·.ending d rates k.now) >>= fun ends => b.rejoined d rates k.now ends) :
    F'.Awaits d rates k' (id, b.before .join) := by
  subst hF
  obtain ⟨hsince, hchildren⟩ :=
    F.forks_owner d rates k.now id k.spawned
      (b.children id asynchronous synchronous)
  have hborn : ∀ i ∈ (F.forks d rates k.now id k.spawned
      (b.children id asynchronous synchronous)).children id,
      ∃ p ∈ newborn k.spawned (b.children id asynchronous synchronous),
        p.2.role = .synchronous id ∧ p.1 = i := by
    intro i hi
    rw [hchildren] at hi
    obtain ⟨p, hp, rfl⟩ := List.mem_map.mp hi
    obtain ⟨hp, hrole⟩ := List.mem_filter.mp hp
    exact ⟨p, hp, of_decide_eq_true hrole, rfl⟩
  refine ⟨?_, ?_, ?_, ?_, ?_⟩
  · rw [F.forks_before d rates _ _ _ hid, F.forks_children, hsince]
    exact ending
  · rw [hsince, forked.now]
  · intro i hi
    obtain ⟨p, hp, -, rfl⟩ := hborn i hi
    rw [forked.spawned]
    exact (mem_newborn hp).2.1
  · intro i hi
    obtain ⟨p, hp, hrole, rfl⟩ := hborn i hi
    exact .inl ⟨p, forked.child_mem hp, rfl, hrole⟩
  · rw [forked.barrier, if_pos rfl]
    exact fun hne => absurd rfl hne

/-- If there are no synchronous children, the owner of a fork goes on at once. -/
lemma Forked.owner_prompt (queued : k'.Queued) {ends : List Ending}
    (hopen : (k'.world.barrier id).remaining = 0)
    (hends : (F'.children id).mapM F'.ending = some ends) : latest (F'.since id) ends = k.now := by
  subst hF
  obtain ⟨hsince, hchildren⟩ :=
    F.forks_owner d rates k.now id k.spawned
      (b.children id asynchronous synchronous)
  have hnone := queued.joined.missing _ forked.owner_mem ⟨_, rfl⟩
  rw [hopen, eq_comm, forkedBy_eq_zero] at hnone
  have hempty : (newborn k.spawned (b.children id asynchronous synchronous)).filter
      (·.2.role = .synchronous id) = [] := by
    rw [List.filter_eq_nil_iff]
    intro p hp hrole
    exact hnone p (forked.child_mem hp) (of_decide_eq_true hrole)
  rw [hchildren, hempty] at hends
  injection hends with hends
  rw [← hends, hsince]
  rfl

/-- A fork adds children to those of its owner. -/
lemma Forked.child_listed {p : ProcessId × Activity}
    (hp : p ∈ newborn k.spawned (b.children id asynchronous synchronous)) {o : ProcessId}
    (hrole : p.2.role = .synchronous o) : p.1 ∈ F'.children o := by
  rcases (child_spec hp).2.2 with hasync | hsync
  · rw [hrole] at hasync
    cases hasync
  · rw [hrole] at hsync
    injection hsync with ho
    subst ho
    rw [hF, (F.forks_owner d rates k.now o k.spawned _).2]
    exact List.mem_map_of_mem (List.mem_filter.mpr ⟨hp, decide_eq_true hrole⟩)

include h runs

/-- Whoever waits for its own children goes on waiting for them. -/
lemma Forked.bystander_awaits {q : ProcessId × Activity} (hq : q ∈ k.bystanders)
    (hqjoins : q.2.Joins) : F'.Awaits d rates k' q := by
  obtain ⟨hid, hcounted⟩ := (h.queued.joined.order.bystanders runs).2.2 q hq
  have hqk := mem_processes_of_bystanders runs hq
  obtain ⟨hchildren, hsince⟩ := F.forks_other d rates k.now k.spawned
    (b.children id asynchronous synchronous) hid
  have hagree : ∀ i < k.spawned, F'.ending i = F.ending i := fun i hi =>
    hF ▸ F.forks_before d rates k.now id _ hi
  refine (h.awaits q hqk hqjoins).mono hagree (hagree _ hcounted).symm (hF ▸ hchildren)
    (hF ▸ hsince) (le_of_eq forked.now.symm) ?_ ?_ ?_ ?_
  · rw [forked.spawned]
    exact Nat.le_add_right _ _
  · intro p hp hrole
    obtain ⟨p', hp', hpid, hprole⟩ := forked.survives runs hp
    exact .inl ⟨p', hp', hpid, hprole.trans hrole⟩
  · rw [forked.barrier, if_neg hid]
    exact fun hne => hne
  · rw [forked.barrier, if_neg hid]
    exact .inl

/-- What is foreseen of those who have been there, and of their children, is the same. -/
lemma Forked.bystander_prompt {x : Appointment Activity} (hx : x ∈ k.others)
    (hxjoins : x.task.Joins) : x.time ≤ k'.now ∧
      ((k'.world.barrier x.process).remaining = 0 → ∀ ends,
        (F'.children x.process).mapM F'.ending = some ends →
          latest (F'.since x.process) ends = x.time) := by
  have hxmem := mem_bystanders_of_others hx
  have hid := h.queued.joined.order.bystander_ne runs hxmem
  obtain ⟨hchildren, hsince⟩ := F.forks_other d rates k.now k.spawned
    (b.children id asynchronous synchronous) hid
  have hknown := (h.awaits _ (mem_processes_of_bystanders runs hxmem) hxjoins).known
  have hsame : (F'.children x.process).mapM F'.ending = (F.children x.process).mapM F.ending := by
    rw [hF, hchildren, ← mapM_congr (fun i => i) fun i hi =>
      F.forks_before d rates k.now id
        (b.children id asynchronous synchronous) (hknown i hi), List.map_id']
  rw [forked.now, forked.barrier, if_neg hid, hsame, hF, hsince]
  exact h.prompt x (mem_agenda_of_others hx) hxjoins

/-- A turn of a process that forks and is going to wait for its children. -/
lemma Forked.foreseen (ha : ¬ a.Joins) (queued : k'.Queued) (disciplined : k'.Disciplined)
    (hb : b.Deterministic)
    (hchildren : ∀ c ∈ b.children id asynchronous synchronous, c.Deterministic)
    (ending : F.ending id =
      ((b.children id asynchronous synchronous).filter (·.role = .synchronous id)).mapM
        (·.ending d rates k.now) >>= fun ends => b.rejoined d rates k.now ends) :
    k'.Foreseen d rates total F' := by
  have hself := running_mem runs
  have order := h.queued.joined.order
  have hcounted := order.counted _ hself
  have hby : ∀ q ∈ k.bystanders, q ∈ k.processes := fun q => mem_processes_of_bystanders runs
  have hagree : ∀ i < k.spawned, F'.ending i = F.ending i := fun i hi =>
    hF ▸ F.forks_before d rates k.now id _ hi
  refine ⟨queued, disciplined, forked.resources ▸ h.delays, ?_, ?_, ?_, ?_, ?_, ?_, ?_, ?_⟩
  · intro p hp
    rcases forked.mem_cases hp with rfl | hp | hp
    · exact before_deterministic hb trivial
    · exact hchildren p.2 (mem_newborn hp).2.2
    · exact h.deterministic p (hby p hp)
  · intro x hx hnot
    rw [forked.agenda.mem_iff, List.mem_cons, List.mem_append] at hx
    rcases hx with rfl | hx | hx
    · exact absurd ⟨_, rfl⟩ hnot
    · obtain ⟨p, hp, rfl⟩ := List.mem_map.mp hx
      exact hF ▸ F.forks_ending k.now id k.spawned _ p hp
    · rw [hagree _ (order.counted _ (hby _ (mem_bystanders_of_others hx)))]
      exact h.appointed x (mem_agenda_of_others hx) hnot
  · intro q hq hqjoins
    rcases forked.mem_cases hq with rfl | hq | hq
    · exact forked.owner_awaits hF hcounted ending
    · exact absurd hqjoins (child_spec hq).1
    · exact forked.bystander_awaits h runs hF hq hqjoins
  · intro p hp o hrole
    have holds : ∀ p ∈ k.processes, p.2.role = .synchronous o → p.1 ∈ F'.children o := by
      intro p hp hrole
      have ho : o ≠ id := by
        rintro rfl
        exact h.queued.joined.childless runs ha p hp hrole
      rw [hF, (F.forks_other d rates k.now k.spawned _ ho).1]
      exact h.children p hp o hrole
    rcases forked.mem_cases hp with rfl | hp | hp
    · exact holds (id, a) hself (forked.role.symm.trans hrole)
    · exact forked.child_listed hF hp hrole
    · exact holds p (hby p hp) hrole
  · intro x hx hxjoins
    rw [forked.agenda.mem_iff, List.mem_cons, List.mem_append] at hx
    rcases hx with rfl | hx | hx
    · exact ⟨le_of_eq forked.now.symm, fun hopen ends hends =>
        forked.owner_prompt hF queued hopen hends⟩
    · obtain ⟨p, hp, rfl⟩ := List.mem_map.mp hx
      exact absurd hxjoins (child_spec hp).1
    · exact forked.bystander_prompt h runs hF hx hxjoins
  · intro p hp n hrole
    rcases forked.mem_cases hp with rfl | hp | hp
    · exact h.numbered (id, a) hself n (forked.role.symm.trans hrole)
    · rcases (child_spec hp).2.2 with hother | hother
      all_goals
        rw [hrole] at hother
        cases hother
    · exact h.numbered p (hby p hp) n hrole
  · rw [forked.completions, forked.spawned]
    intro e he
    obtain ⟨hlt, hending⟩ := h.completions e he
    exact ⟨Nat.lt_add_right _ hlt, (hagree _ hlt).trans hending⟩
  · rw [forked.completions]
    intro n hn
    rcases h.reported n hn with ⟨p, hp, hrole⟩ | hdone
    · obtain ⟨p', hp', -, hprole⟩ := forked.survives runs hp
      exact .inl ⟨p', hp', hprole.trans hrole⟩
    · exact .inr hdone

end Forks

/-! ## All turns -/

lemma awoken_deterministic (ha : a.Deterministic) : a.awoken.Deterministic :=
  ⟨fun t ht => ha.tasks t (List.mem_of_mem_tail ht), ha.frames, ha.result⟩

/-- A turn of a process that joins. -/
lemma Turned.foreseen_joins (h : k.Foreseen d rates total F) (runs : k.running = some (id, a))
    (turned : Turned k k' id (a.turn d k.now id k.world)) (queued : k'.Queued)
    (disciplined : k'.Disciplined) (joins : a.Joins) : k'.Foreseen d rates total F := by
  have hself := running_mem runs
  have hadvance : a.advance d k.now id k.world = a.awoken.joinForked k.now id k.world := by
    obtain ⟨rest, htasks⟩ := joins
    simp only [Activity.advance, htasks, performTask, awoken, List.tail_cons]
  rw [turn, hadvance, joinForked] at turned
  by_cases hopen : (k.world.barrier id).remaining = 0
  · have hisOpen : (k.world.barrier id).isOpen = true := by
      rw [Barrier.isOpen, hopen]
      rfl
    have hagenda := running_agenda runs
    have hchildless := h.queued.joined.childless_of_open runs joins hopen
    have hawaits := h.awaits _ hself joins
    obtain ⟨ends, hends, -, hfailed⟩ := hawaits.ends hchildless
    have hlatest := (h.prompt _ hagenda joins).2 hopen ends hends
    have hending := hawaits.ending
    rw [hends, Option.bind_eq_bind, Option.bind_some, rejoined, ServiceSim.joined, hlatest] at hending
    have hbarriers : ∀ o, o ≠ id →
        (k.world.dropBarrier id).barrier o = k.world.barrier o := by
      intro o ho
      rw [Environment.barrier_dropBarrier, if_neg ho]
    simp only [hisOpen, if_true, Barrier.collect] at turned
    cases hfailures : (k.world.barrier id).failures with
    | nil =>
      rw [if_neg (fun hany => hfailed.mp hany hfailures)] at hending
      rw [hfailures] at turned
      have hsettled := h.queued.joined.settled _ hself
      exact turned.foreseen_goes h runs queued disciplined h.delays rfl rfl
        (awoken_deterministic (h.deterministic _ hself)) (Awake.not_joins hsettled) rfl rfl rfl
        hending hbarriers rfl
    | cons e rest =>
      rw [if_pos (hfailed.mpr (by rw [hfailures]; exact List.cons_ne_nil _ _))] at hending
      rw [hfailures] at turned
      exact turned.foreseen_ends h runs hending rfl hchildless hbarriers rfl queued disciplined rfl
  · have hclosed : (k.world.barrier id).isOpen = false := by
      rw [Barrier.isOpen]
      exact beq_false_of_ne hopen
    have hwait : a.awoken.before .join = a := by
      obtain ⟨rest, htasks⟩ := joins
      simp only [awoken, before, htasks, List.tail_cons]
      rw [← htasks]
    simp only [hclosed, Bool.false_eq_true, if_false, hwait] at turned
    exact turned.foreseen_awaits h runs queued disciplined

/-- **A turn keeps the forecast**, which is extended by the children that the turn forks. -/
theorem Turned.foreseen (hmodel : d.model.isDeterministic = true)
    (h : k.Foreseen d rates total F) (runs : k.running = some (id, a))
    (turned : Turned k k' id (a.turn d k.now id k.world)) :
    ∃ F', k'.Foreseen d rates total F' ∧ ∀ i < k.spawned, F'.ending i = F.ending i := by
  have queued := turned.queued h.queued runs
  have disciplined := turned.disciplined h.disciplined runs
  have hself := running_mem runs
  have hsound := h.disciplined.sound _ hself
  have hsettled := h.queued.joined.settled _ hself
  have ha := h.deterministic _ hself
  by_cases joins : a.Joins
  · exact ⟨F, turned.foreseen_joins h runs queued disciplined joins, fun _ _ => rfl⟩
  have hagenda := running_agenda runs
  have hending : F.ending id = a.ending d rates k.now := h.appointed _ hagenda joins
  cases hforking : a.forking with
  | some forked =>
    obtain ⟨asynchronous, synchronous⟩ := forked
    obtain ⟨env, b, steady, role, -, hb, hchildren, hadvance, hsplit⟩ :=
      advance_forks d rates k.now id k.world hsound hsettled ha hforking
    rw [turn, hadvance] at turned
    exact ⟨_, (turned.forked steady role).foreseen h runs rfl joins queued disciplined hb hchildren
      (hending.trans hsplit), fun i hi => F.forks_before d rates k.now id _ hi⟩
  | none =>
    refine ⟨F, ?_, fun _ _ => rfl⟩
    have heffect := advance_effect d k.now id k.world hsettled
    have hpursues := advance_pursues k.now id hmodel hsound ha h.delays joins
      hforking
    rw [turn] at turned
    generalize a.advance d k.now id k.world = progress at heffect hpursues turned
    cases heffect with
    | proceeds _ _ steady hb role =>
      exact turned.foreseen_goes h runs queued disciplined (steady.resources ▸ h.delays) rfl rfl
        hpursues.1 hb.not_joins role rfl rfl (hending.trans hpursues.2.symm)
        (fun o _ => steady.barrier o) steady.completions
    | arrives _ _ hb role =>
      exact turned.foreseen_goes h runs queued disciplined h.delays rfl rfl hpursues.1 hb.not_joins
        role rfl rfl (hending.trans hpursues.2.symm) (fun _ _ => rfl) rfl
    | granted _ _ hissue barriers completions hb role =>
      exact turned.foreseen_goes h runs queued disciplined (h.delays.of_issue hissue) rfl rfl hpursues.1
        (before_not_joins (by simp)) role rfl rfl (hending.trans hpursues.2.symm)
        (fun o _ => Environment.barrier_congr barriers o) completions
    | queued => exact hpursues.elim
    | serves _ steady hb role =>
      exact turned.foreseen_goes h runs queued disciplined (steady.resources ▸ h.delays) rfl rfl
        hpursues.1 (before_not_joins (by simp)) role rfl rfl (hending.trans hpursues.2.symm)
        (fun o _ => steady.barrier o) steady.completions
    | completes _ hcomplete barriers completions hb role =>
      obtain ⟨rfl, hdelays⟩ := h.delays.of_complete hcomplete
      exact turned.foreseen_goes h runs queued disciplined hdelays rfl rfl hpursues.1 hb.not_joins
        role rfl rfl (hending.trans hpursues.2.symm)
        (fun o _ => Environment.barrier_congr barriers o) completions
    | forks _ _ hfork =>
      rw [hforking] at hfork
      cases hfork
    | joins htasks => exact absurd ⟨_, htasks⟩ joins
    | awaits hjoins => exact absurd hjoins joins
    | ends _ _ steady time =>
      exact turned.foreseen_ends h runs (hending.trans hpursues) time
        (h.queued.joined.childless runs joins) (fun o _ => steady.barrier o) steady.completions
        queued disciplined steady.resources
    | fails hjoins => exact absurd hjoins joins

/-! ## Runs -/

/-- Every step of a run keeps the forecast. -/
theorem step_foreseen (hmodel : d.model.isDeterministic = true) (h : k.Foreseen d rates total F)
    {stop : Option SimTime} (hstep : k.step (program d) stop = .goes k') :
    ∃ F', k'.Foreseen d rates total F' ∧ k.spawned ≤ k'.spawned ∧
      ∀ i < k.spawned, F'.ending i = F.ending i := by
  rcases step_cases h.queued.joined.order hstep with quiet | ⟨id, a, runs, turned⟩
  · exact ⟨F, quiet.foreseen h, le_of_eq quiet.spawned.symm, fun _ _ => rfl⟩
  · obtain ⟨F', h', hsame⟩ := turned.foreseen hmodel h runs
    refine ⟨F', h', ?_, hsame⟩
    rw [turned.spawned]
    exact Nat.le_add_right _ _

/-- The completion of a request, once the request is there no more. -/
lemma Foreseen.completion (h : k.Foreseen d rates total F) (processes : k.processes = []) {n : Nat}
    (hn : n < total) :
    ∃ c, k.world.completion? n = some c ∧ F.ending n = some c.ending := by
  rcases h.reported n hn with ⟨p, hp, -⟩ | ⟨c, hc⟩
  · rw [processes] at hp
    cases hp
  · obtain ⟨c', hc', hmem⟩ := Environment.completion?_of_mem hc
    exact ⟨c', hc', (h.completions _ hmem).2⟩

/-- **A run that returns has brought all requests to their endings.** -/
theorem run_foreseen (hmodel : d.model.isDeterministic = true) (h : k.Foreseen d rates total F)
    (htotal : total ≤ k.spawned) {fuel : Nat} (hrun : k.run (program d) none fuel = some k') :
    ∀ n < total, ∃ c, k'.world.completion? n = some c ∧ F.ending n = some c.ending := by
  refine run_induction (P := fun k => ∃ F', k.Foreseen d rates total F' ∧ total ≤ k.spawned ∧
    ∀ i < total, F'.ending i = F.ending i) (Q := fun k' => ∀ n < total, ∃ c,
      k'.world.completion? n = some c ∧ F.ending n = some c.ending) k ⟨F, h, htotal, fun _ _ => rfl⟩
    ?_ ?_ hrun
  · rintro k₁ k₂ ⟨F₁, h₁, htotal₁, hsame₁⟩ hstep
    obtain ⟨F₂, h₂, hspawned, hsame₂⟩ := step_foreseen hmodel h₁ hstep
    refine ⟨F₂, h₂, htotal₁.trans hspawned, fun i hi => ?_⟩
    exact (hsame₂ i (hi.trans_le htotal₁)).trans (hsame₁ i hi)
  · rintro k₁ k₂ ⟨F₁, h₁, -, hsame₁⟩ hstep n hn
    obtain ⟨-, hends⟩ := step_ends h₁.queued.joined.order hstep
    obtain ⟨rfl, hagenda⟩ := hends rfl
    obtain ⟨c, hc, hending⟩ := h₁.completion (h₁.queued.all_finished hagenda) hn
    exact ⟨c, hc, (hsame₁ n hn).symm.trans hending⟩

/-! ## Before a run -/

/-- A kernel without processes. -/
lemma initial_foreseen (env : Environment) (barriers : env.barriers = [])
    (completions : env.completions = []) (delays : env.resources.Delays rates) :
    (initial env : Kernel Environment Activity).Foreseen d rates 0 .blank := by
  have hprocesses : (initial env : Kernel Environment Activity).processes = [] := rfl
  have hagenda : (initial env : Kernel Environment Activity).agenda = [] := rfl
  refine ⟨initial_queued env barriers ?_, initial_disciplined env barriers, delays, ?_, ?_, ?_, ?_, ?_,
    ?_, ?_, ?_⟩
  · intro key s hs
    rw [delays.line] at hs
    cases hs
  · simp [hprocesses]
  · simp [hagenda]
  · simp [hprocesses]
  · simp [hprocesses]
  · simp [hagenda]
  · simp [hprocesses]
  · simp [initial, completions]
  · simp

/-- What is changed from outside does not matter if processes do not depend on it. -/
lemma mapWorld_foreseen (h : k.Foreseen d rates total F) {f : Environment → Environment}
    (steady : k.world.Steady (f k.world)) : (k.mapWorld f).Foreseen d rates total F := by
  have hbarrier : ∀ o, (k.mapWorld f).world.barrier o = k.world.barrier o := steady.barrier
  have hcompletions : (k.mapWorld f).world.completions = k.world.completions := steady.completions
  refine ⟨mapWorld_queued h.queued steady, ?_, steady.resources ▸ h.delays, h.deterministic,
    h.appointed, ?_, h.children, ?_, h.numbered, ?_, ?_⟩
  · exact event_disciplined (d := d) (.answers _ steady.barriers) h.disciplined
  · intro q hq hqjoins
    refine (h.awaits q hq hqjoins).mono (fun _ _ => rfl) rfl rfl rfl (le_refl _) (le_refl _) ?_ ?_ ?_
    · exact fun p hp hrole => .inl ⟨p, hp, rfl, hrole⟩
    · rw [hbarrier]
      exact fun hne => hne
    · rw [hbarrier]
      exact .inl
  · intro x hx hxjoins
    rw [hbarrier]
    exact h.prompt x hx hxjoins
  · rw [hcompletions]
    exact h.completions
  · rw [hcompletions]
    exact h.reported

/-- A request that enters is foreseen to end as the evaluator says. -/
lemma spawn_foreseen (h : k.Foreseen d rates total F) (htotal : total = k.spawned)
    (enters : a.Enters) (awake : a.Awake) (role : a.role = .request total)
    (ha : a.Deterministic) :
    (k.spawn a).Foreseen d rates (total + 1) (F.enters total (a.ending d rates k.now)) := by
  have hperm := spawn_processes a k
  have hagenda := spawn_agenda a k
  have order := h.queued.joined.order
  rw [← htotal] at hperm hagenda
  have hcases : ∀ p ∈ (k.spawn a).processes, p = (total, a) ∨ p ∈ k.processes := fun p hp =>
    List.mem_cons.mp (hperm.mem_iff.mp hp)
  have hmem : ∀ p ∈ k.processes, p ∈ (k.spawn a).processes := fun p hp =>
    hperm.mem_iff.mpr (List.mem_cons_of_mem _ hp)
  have hspawned : (k.spawn a).spawned = k.spawned + 1 := rfl
  have hold : ∀ i < k.spawned, (F.enters total (a.ending d rates k.now)).ending i = F.ending i :=
    fun i hi => if_neg (htotal ▸ Nat.ne_of_lt hi)
  refine ⟨spawn_queued h.queued awake role,
    event_disciplined (d := d) (.enters enters) h.disciplined, h.delays, ?_, ?_, ?_, ?_, ?_, ?_, ?_, ?_⟩
  · intro p hp
    rcases hcases p hp with rfl | hp
    · exact ha
    · exact h.deterministic p hp
  · intro x hx hnot
    rcases List.mem_cons.mp (hagenda.mem_iff.mp hx) with rfl | hx
    · exact if_pos rfl
    · have hxmem : (x.process, x.task) ∈ k.processes := (mem_processes _).mpr (.inl ⟨x.time, hx⟩)
      exact (hold _ (order.counted _ hxmem)).trans (h.appointed x hx hnot)
  · intro q hq hqjoins
    rcases hcases q hq with rfl | hq
    · exact absurd hqjoins awake.not_joins
    · refine (h.awaits q hq hqjoins).mono hold (hold _ (order.counted q hq)).symm rfl rfl (le_refl _)
        (Nat.le_succ _) ?_ (fun hne => hne) .inl
      exact fun p hp hrole => .inl ⟨p, hmem p hp, rfl, hrole⟩
  · intro p hp o hrole
    rcases hcases p hp with rfl | hp
    · rw [role] at hrole
      cases hrole
    · exact h.children p hp o hrole
  · intro x hx hxjoins
    rcases List.mem_cons.mp (hagenda.mem_iff.mp hx) with rfl | hx
    · exact absurd hxjoins awake.not_joins
    · have hxmem : (x.process, x.task) ∈ k.processes := (mem_processes _).mpr (.inl ⟨x.time, hx⟩)
      have hknown := (h.awaits _ hxmem hxjoins).known
      have hsame := mapM_congr (fun i => i) fun i hi => hold i (hknown i hi)
      rw [List.map_id'] at hsame
      change _ ∧ (_ → ∀ ends, (F.children x.process).mapM _ = _ → _)
      rw [hsame]
      exact h.prompt x hx hxjoins
  · intro p hp n hrole
    rcases hcases p hp with rfl | hp
    · rw [role] at hrole
      injection hrole
    · exact h.numbered p hp n hrole
  · intro e he
    obtain ⟨hlt, hending⟩ := h.completions e he
    exact ⟨hlt.trans (Nat.lt_succ_self _), (hold _ hlt).trans hending⟩
  · intro n hn
    rcases Nat.lt_succ_iff_lt_or_eq.mp hn with hn | rfl
    · exact (h.reported n hn).imp_left fun ⟨p, hp, hrole⟩ => ⟨p, hmem p hp, hrole⟩
    · exact .inl ⟨_, hperm.mem_iff.mpr List.mem_cons_self, role⟩

end ServiceSim.Kernel

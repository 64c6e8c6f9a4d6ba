import ServiceSim.Proofs.Interpreter.Effects
import ServiceSim.Proofs.Kernel.Processes

/-!
# Forks and joins

A process that forks waits at its barrier until all those that it has forked synchronously have
reported.  `Kernel.Joined` relates the barriers to the processes: the barrier of a process that
joins counts its synchronous children among the processes, and whoever waits at a barrier is blocked
there, as long as somebody is missing.  Children have larger identities than their owners, so no
two processes wait for each other.

The invariant also says what a blocked process waits for, a barrier or a server.  That a server is
given only to a process that waits for one is a matter of the resources, so the steps that complete
a demand keep the invariant under this assumption.
-/

namespace ServiceSim

open Activity

namespace Kernel

/-- The number of processes that a process has forked synchronously. -/
def forkedBy (owner : ProcessId) (processes : List (ProcessId × Activity)) : Nat :=
  processes.countP fun p => p.2.role = .synchronous owner

/-- **Barriers and processes agree.** -/
structure Joined (k : Kernel Environment Activity) : Prop where
  order : k.Orderly
  settled : ∀ p ∈ k.processes, p.2.Settled
  owner : ∀ p ∈ k.processes, ∀ o, p.2.role = .synchronous o →
    o < p.1 ∧ ∃ q ∈ k.processes, q.1 = o ∧ q.2.Joins
  missing : ∀ q ∈ k.processes, q.2.Joins →
    (k.world.barrier q.1).remaining = forkedBy q.1 k.processes
  waits : ∀ q ∈ k.blocked, q.2.Joins →
    (k.world.barrier q.1).waiters = [q.1] ∧ (k.world.barrier q.1).remaining ≠ 0
  waiter : ∀ o, ∀ w ∈ (k.world.barrier o).waiters, w = o ∧ ∃ q ∈ k.blocked, q.1 = o ∧ q.2.Joins
  blocked : ∀ q ∈ k.blocked, q.2.Joins ∨ ∃ load, q.2.Serves load

variable {d : Deployment} {k k' : Kernel Environment Activity} {id : ProcessId} {a b : Activity}
  {turn : Turn Environment Activity}

lemma forkedBy_perm (owner : ProcessId) {l l' : List (ProcessId × Activity)} (h : l.Perm l') :
    forkedBy owner l = forkedBy owner l' :=
  h.countP_eq _

lemma forkedBy_eq_zero {owner : ProcessId} {l : List (ProcessId × Activity)} :
    forkedBy owner l = 0 ↔ ∀ p ∈ l, p.2.role ≠ .synchronous owner := by
  rw [forkedBy, List.countP_eq_zero]
  simp

lemma forkedBy_cons (owner : ProcessId) (p : ProcessId × Activity)
    (l : List (ProcessId × Activity)) :
    forkedBy owner (p :: l) = forkedBy owner l + if p.2.role = .synchronous owner then 1 else 0 := by
  rw [forkedBy, List.countP_cons]
  simp [forkedBy]

lemma forkedBy_append (owner : ProcessId) (l l' : List (ProcessId × Activity)) :
    forkedBy owner (l ++ l') = forkedBy owner l + forkedBy owner l' :=
  List.countP_append

/-- Nobody waits at the barrier of a process that runs. -/
lemma Joined.no_waiters (h : k.Joined) (runs : k.running = some (id, a)) :
    (k.world.barrier id).waiters = [] := by
  rw [List.eq_nil_iff_forall_not_mem]
  intro w hw
  obtain ⟨-, q, hq, hid, -⟩ := h.waiter id w hw
  exact h.order.not_blocked runs q hq hid

/-- A process that does not join has no synchronous children. -/
lemma Joined.childless (h : k.Joined) (runs : k.running = some (id, a)) (ha : ¬ a.Joins) :
    ∀ p ∈ k.processes, p.2.role ≠ .synchronous id := by
  intro p hp hrole
  obtain ⟨-, q, hq, hid, hjoins⟩ := h.owner p hp id hrole
  have hqa := h.order.unique hq (running_mem runs) hid
  rw [hqa] at hjoins
  exact ha hjoins

/-- A process has no synchronous children when nobody is missing at its barrier. -/
lemma Joined.childless_of_open (h : k.Joined) (runs : k.running = some (id, a)) (ha : a.Joins)
    (hopen : (k.world.barrier id).remaining = 0) :
    ∀ p ∈ k.processes, p.2.role ≠ .synchronous id := by
  rw [← forkedBy_eq_zero, ← h.missing (id, a) (running_mem runs) ha]
  exact hopen

/-- The owner of a bystander is a bystander, unless it runs. -/
lemma Joined.bystander_owner (h : k.Joined) (runs : k.running = some (id, a))
    (childless : ∀ p ∈ k.processes, p.2.role ≠ .synchronous id) {p : ProcessId × Activity}
    (hp : p ∈ k.processes) {o : ProcessId} (hrole : p.2.role = .synchronous o) :
    o < p.1 ∧ o ≠ id ∧ ∃ q ∈ k.bystanders, q.1 = o ∧ q.2.Joins := by
  have ho : o ≠ id := by
    rintro rfl
    exact childless p hp hrole
  obtain ⟨hlt, q, hq, hid, hjoins⟩ := h.owner p hp o hrole
  refine ⟨hlt, ho, q, ?_, hid, hjoins⟩
  rw [processes_eq runs] at hq
  rcases List.mem_cons.mp hq with rfl | hq
  · exact absurd hid.symm ho
  · exact hq

/-! ## Turns -/

/-- A turn of a process that does not wait for others afterwards, and whom nobody needs at a
barrier. -/
lemma Turned.joined (h : k.Joined) (runs : k.running = some (id, a)) (turned : Turned k k' id turn)
    (spawned : turn.spawned = []) (goesOn : turn.next.goesOn id = [(id, b)])
    (childless : ∀ p ∈ k.processes, p.2.role ≠ .synchronous id) (hb : ¬ b.Joins)
    (settled : b.Settled) (role : b.role = a.role)
    (barriers : ∀ o, o ≠ id → turn.world.barrier o = k.world.barrier o)
    (own : (turn.world.barrier id).waiters = [])
    (woken : ∀ q ∈ k.blocked, q.1 ∈ turn.woken → ¬ q.2.Joins)
    (waiting : ∀ p ∈ turn.next.waiting id, ∃ load, p.2.Serves load) : k'.Joined := by
  have hids := turned.distinct h.order runs
  have hperm : k'.processes.Perm ((id, b) :: k.bystanders) := by
    have := turned.processes
    rw [goesOn, spawned] at this
    exact this
  have hold : k.processes = (id, a) :: k.bystanders := processes_eq runs
  have hby : ∀ q ∈ k.bystanders, q.1 ≠ id := fun q => h.order.bystander_ne runs
  -- Whoever joins afterwards is a bystander, whose barrier is the same as before.
  have hjoins : ∀ q ∈ k'.processes, q.2.Joins → q ∈ k.bystanders := by
    intro q hq hjoins
    rcases List.mem_cons.mp (hperm.mem_iff.mp hq) with rfl | hq
    · exact absurd hjoins hb
    · exact hq
  have hserves : ∀ q ∈ turn.next.waiting id, ¬ q.2.Joins := by
    rintro q hq ⟨rest, hrest⟩
    obtain ⟨load, rest', hrest'⟩ := waiting q hq
    rw [hrest] at hrest'
    cases hrest'
  refine ⟨⟨turned.lined, hids.1, hids.2⟩, ?_, ?_, ?_, ?_, ?_, ?_⟩
  · intro p hp
    rcases List.mem_cons.mp (hperm.mem_iff.mp hp) with rfl | hp
    · exact settled
    · exact h.settled p (mem_processes_of_bystanders runs hp)
  · intro p hp o hrole
    obtain ⟨p', hp', hid, hrole'⟩ : ∃ p' ∈ k.processes, p'.1 = p.1 ∧ p'.2.role = .synchronous o := by
      rcases List.mem_cons.mp (hperm.mem_iff.mp hp) with rfl | hp
      · exact ⟨(id, a), running_mem runs, rfl, role ▸ hrole⟩
      · exact ⟨p, mem_processes_of_bystanders runs hp, rfl, hrole⟩
    obtain ⟨hlt, -, q, hq, hqo, hqjoins⟩ := h.bystander_owner runs childless hp' hrole'
    exact ⟨hid ▸ hlt, q, hperm.mem_iff.mpr (List.mem_cons_of_mem _ hq), hqo, hqjoins⟩
  · intro q hq hqjoins
    have hq' := hjoins q hq hqjoins
    rw [turned.world, barriers q.1 (hby q hq'), forkedBy_perm _ hperm,
      h.missing q (mem_processes_of_bystanders runs hq') hqjoins, hold, forkedBy_cons, forkedBy_cons,
      role]
  · intro q hq hqjoins
    rw [turned.blocked, List.mem_append, List.mem_filter] at hq
    rcases hq with ⟨hq, -⟩ | hq
    · rw [turned.world, barriers q.1 (h.order.not_blocked runs q hq)]
      exact h.waits q hq hqjoins
    · exact absurd hqjoins (hserves q hq)
  · intro o w hw
    rw [turned.world] at hw
    by_cases ho : o = id
    · rw [ho, own] at hw
      cases hw
    · rw [barriers o ho] at hw
      obtain ⟨hwo, q, hq, hqo, hqjoins⟩ := h.waiter o w hw
      refine ⟨hwo, q, ?_, hqo, hqjoins⟩
      rw [turned.blocked]
      refine List.mem_append_left _ (List.mem_filter.mpr ⟨hq, ?_⟩)
      exact decide_eq_true fun hwoken => woken q hq hwoken hqjoins
  · intro q hq
    rw [turned.blocked, List.mem_append, List.mem_filter] at hq
    rcases hq with ⟨hq, -⟩ | hq
    · exact h.blocked q hq
    · exact .inr (waiting q hq)

/-- A process that still waits at its barrier. -/
lemma Turned.joined_awaits (h : k.Joined) (runs : k.running = some (id, a)) (ha : a.Joins)
    (missing : (k.world.barrier id).remaining ≠ 0)
    (turned : Turned k k' id ⟨k.world.setBarrier id ((k.world.barrier id).await id), [], [],
      .block a⟩) : k'.Joined := by
  have hids := turned.distinct h.order runs
  have hperm : k'.processes.Perm k.processes := by
    rw [processes_eq runs]
    exact turned.processes
  have hblocked : k'.blocked = k.blocked ++ [(id, a)] := by
    rw [turned.blocked]
    simp [Next.waiting]
  have hbarrier : ∀ o, k'.world.barrier o =
      if o = id then (k.world.barrier id).await id else k.world.barrier o := by
    intro o
    rw [turned.world]
    exact Environment.barrier_setBarrier _ _ _ _
  refine ⟨⟨turned.lined, hids.1, hids.2⟩, ?_, ?_, ?_, ?_, ?_, ?_⟩
  · intro p hp
    exact h.settled p (hperm.mem_iff.mp hp)
  · intro p hp o hrole
    obtain ⟨hlt, q, hq, hqo⟩ := h.owner p (hperm.mem_iff.mp hp) o hrole
    exact ⟨hlt, q, hperm.mem_iff.mpr hq, hqo⟩
  · intro q hq hqjoins
    rw [forkedBy_perm _ hperm, ← h.missing q (hperm.mem_iff.mp hq) hqjoins, hbarrier]
    split_ifs with hid
    · rw [hid]
      rfl
    · rfl
  · intro q hq hqjoins
    rw [hblocked, List.mem_append, List.mem_singleton] at hq
    rw [hbarrier]
    rcases hq with hq | rfl
    · rw [if_neg (h.order.not_blocked runs q hq)]
      exact h.waits q hq hqjoins
    · rw [if_pos rfl]
      refine ⟨?_, missing⟩
      rw [Barrier.await, h.no_waiters runs]
      rfl
  · intro o w hw
    rw [hbarrier] at hw
    rw [hblocked]
    split_ifs at hw with ho
    · rw [Barrier.await, h.no_waiters runs] at hw
      exact ⟨(List.mem_singleton.mp hw).trans ho.symm, (id, a),
        List.mem_append_right _ List.mem_cons_self, ho.symm, ha⟩
    · obtain ⟨hwo, q, hq, hqo⟩ := h.waiter o w hw
      exact ⟨hwo, q, List.mem_append_left _ hq, hqo⟩
  · intro q hq
    rw [hblocked, List.mem_append, List.mem_singleton] at hq
    rcases hq with hq | rfl
    · exact h.blocked q hq
    · exact .inl ha

/-! ### Forks -/

lemma forkedBy_newborn (owner : ProcessId) (first : Nat) (tasks : List Activity) :
    forkedBy owner (newborn first tasks) = tasks.countP (·.role = .synchronous owner) := by
  rw [forkedBy]
  conv_rhs => rw [← newborn_tasks first tasks]
  rw [List.countP_map]
  rfl

/-- What a fork adds begins with its behavior, and is owned by nobody or by the process that
forks. -/
lemma children_spec (owner : ProcessId) (asynchronous synchronous : List Behavior) :
    ∀ c ∈ b.children owner asynchronous synchronous,
      (∃ behavior, c.tasks = [.enterFork behavior]) ∧
      (c.role = .asynchronous ∨ c.role = .synchronous owner) := by
  intro c hc
  rcases List.mem_append.mp hc with hc | hc
  all_goals
    rw [List.mem_mapIdx] at hc
    obtain ⟨i, hi, rfl⟩ := hc
  · exact ⟨⟨_, rfl⟩, .inl rfl⟩
  · exact ⟨⟨_, rfl⟩, .inr rfl⟩

lemma children_count (owner : ProcessId) (asynchronous synchronous : List Behavior) :
    (b.children owner asynchronous synchronous).countP (·.role = .synchronous owner) =
      synchronous.length := by
  have hasync : (asynchronous.mapIdx fun i behavior =>
      b.forked ("async-" ++ toString i) .asynchronous behavior).countP
        (·.role = .synchronous owner) = 0 := by
    rw [List.countP_eq_zero]
    intro c hc
    rw [List.mem_mapIdx] at hc
    obtain ⟨i, hi, rfl⟩ := hc
    simp [forked]
  rw [children, List.countP_append, hasync, Nat.zero_add, List.countP_eq_length.mpr]
  · exact List.length_mapIdx
  · intro c hc
    rw [List.mem_mapIdx] at hc
    obtain ⟨i, hi, rfl⟩ := hc
    simp [forked]

/-- **A fork.**  The process is going to join, its children have been added, and its barrier counts
those that are synchronous. -/
structure Forked (k k' : Kernel Environment Activity) (id : ProcessId) (a b : Activity)
    (asynchronous synchronous : List Behavior) : Prop where
  role : b.role = a.role
  agenda : k'.agenda.Perm (⟨id, b.before .join, k.now⟩ ::
    (appointed k.now (newborn k.spawned (b.children id asynchronous synchronous)) ++ k.others))
  processes : k'.processes.Perm ((id, b.before .join) ::
    (newborn k.spawned (b.children id asynchronous synchronous) ++ k.bystanders))
  blocked : k'.blocked = k.blocked
  spawned : k'.spawned = k.spawned + (b.children id asynchronous synchronous).length
  now : k'.now = k.now
  barrier : ∀ o, k'.world.barrier o =
    if o = id then Barrier.new synchronous.length else k.world.barrier o
  resources : k'.world.resources = k.world.resources
  completions : k'.world.completions = k.world.completions

lemma Turned.forked {env : Environment} (steady : k.world.Steady env) (role : b.role = a.role)
    {asynchronous synchronous : List Behavior}
    (turned : Turned k k' id ⟨env.setBarrier id (Barrier.new synchronous.length), [],
      b.children id asynchronous synchronous, .proceed (b.before .join)⟩) :
    Forked k k' id a b asynchronous synchronous := by
  refine ⟨role, ?_, turned.processes, ?_, turned.spawned, turned.now, fun o => ?_, ?_, ?_⟩
  · simpa [appointed, Next.appointments] using turned.agenda
  · rw [turned.blocked]
    simp [Next.waiting]
  · rw [turned.world, ← steady.barrier]
    exact Environment.barrier_setBarrier env id o _
  · rw [turned.world, ← steady.resources]
    rfl
  · rw [turned.world, ← steady.completions]
    rfl

/-- The children of a fork join nobody, and are nobody's or the owner's. -/
lemma child_spec {owner first : ProcessId} {asynchronous synchronous : List Behavior}
    {p : ProcessId × Activity} (hp : p ∈ newborn first (b.children owner asynchronous synchronous)) :
    ¬ p.2.Joins ∧ p.2.Settled ∧ (p.2.role = .asynchronous ∨ p.2.role = .synchronous owner) := by
  obtain ⟨⟨behavior, htasks⟩, hrole⟩ :=
    children_spec owner asynchronous synchronous p.2 (mem_newborn hp).2.2
  refine ⟨not_joins_of_tasks htasks (by simp), ?_, hrole⟩
  intro task htask
  rw [htasks] at htask
  cases htask

namespace Forked

variable {asynchronous synchronous : List Behavior}
  (forked : Forked k k' id a b asynchronous synchronous)

include forked

lemma mem_cases {p : ProcessId × Activity} (hp : p ∈ k'.processes) : p = (id, b.before .join) ∨
    p ∈ newborn k.spawned (b.children id asynchronous synchronous) ∨ p ∈ k.bystanders := by
  rw [forked.processes.mem_iff, List.mem_cons, List.mem_append] at hp
  exact hp

lemma owner_mem : (id, b.before .join) ∈ k'.processes :=
  forked.processes.mem_iff.mpr List.mem_cons_self

lemma child_mem {p : ProcessId × Activity}
    (hp : p ∈ newborn k.spawned (b.children id asynchronous synchronous)) : p ∈ k'.processes :=
  forked.processes.mem_iff.mpr (List.mem_cons_of_mem _ (List.mem_append_left _ hp))

lemma bystander_mem {p : ProcessId × Activity} (hp : p ∈ k.bystanders) : p ∈ k'.processes :=
  forked.processes.mem_iff.mpr (List.mem_cons_of_mem _ (List.mem_append_right _ hp))

/-- Everybody is still there in the same role. -/
lemma survives (runs : k.running = some (id, a)) {p : ProcessId × Activity}
    (hp : p ∈ k.processes) : ∃ p' ∈ k'.processes, p'.1 = p.1 ∧ p'.2.role = p.2.role := by
  rw [processes_eq runs] at hp
  rcases List.mem_cons.mp hp with rfl | hp
  · exact ⟨_, forked.owner_mem, rfl, forked.role⟩
  · exact ⟨p, forked.bystander_mem hp, rfl, rfl⟩

/-- The barrier of the owner counts its children. -/
lemma owner_missing (runs : k.running = some (id, a))
    (childless : ∀ p ∈ k.processes, p.2.role ≠ .synchronous id) :
    (k'.world.barrier id).remaining = forkedBy id k'.processes := by
  have hnone : forkedBy id k.processes = 0 := forkedBy_eq_zero.mpr childless
  rw [processes_eq runs, forkedBy_cons, ← forked.role] at hnone
  rw [forkedBy_perm _ forked.processes, forkedBy_cons, forkedBy_append, forkedBy_newborn,
    children_count, forked.barrier, if_pos rfl]
  change synchronous.length = synchronous.length + forkedBy id k.bystanders +
    (if b.role = .synchronous id then 1 else 0)
  omega

/-- All others have as many children as before. -/
lemma other_children (runs : k.running = some (id, a)) {o : ProcessId} (ho : o ≠ id) :
    forkedBy o k'.processes = forkedBy o k.processes := by
  have hborn : (b.children id asynchronous synchronous).countP (·.role = .synchronous o) = 0 := by
    rw [List.countP_eq_zero]
    intro c hc
    rcases (children_spec id asynchronous synchronous c hc).2 with hrole | hrole
    · simp [hrole]
    · simp [hrole, ho.symm]
  rw [forkedBy_perm _ forked.processes, forkedBy_cons, forkedBy_append, forkedBy_newborn, hborn,
    processes_eq runs, forkedBy_cons, ← forked.role, Nat.zero_add]
  rfl

end Forked

/-- A process that forks and is going to wait for its children. -/
lemma Turned.joined_forks (h : k.Joined) (runs : k.running = some (id, a)) (ha : ¬ a.Joins)
    (hb : b.Awake) (turned : Turned k k' id turn) {asynchronous synchronous : List Behavior}
    (forked : Forked k k' id a b asynchronous synchronous) : k'.Joined := by
  have hids := turned.distinct h.order runs
  have hchildless := h.childless runs ha
  have hby : ∀ p ∈ k.bystanders, p ∈ k.processes := fun p => mem_processes_of_bystanders runs
  refine ⟨⟨turned.lined, hids.1, hids.2⟩, ?_, ?_, ?_, ?_, ?_, ?_⟩
  · intro p hp
    rcases forked.mem_cases hp with rfl | hp | hp
    · exact before_settled hb _
    · exact (child_spec hp).2.1
    · exact h.settled p (hby p hp)
  · have howner : ∀ p ∈ k.processes, ∀ o, p.2.role = .synchronous o →
        o < p.1 ∧ ∃ q ∈ k'.processes, q.1 = o ∧ q.2.Joins := by
      intro p hp o hrole
      obtain ⟨hlt, -, q, hq, hqo⟩ := h.bystander_owner runs hchildless hp hrole
      exact ⟨hlt, q, forked.bystander_mem hq, hqo⟩
    intro p hp o hrole
    rcases forked.mem_cases hp with rfl | hp | hp
    · exact howner (id, a) (running_mem runs) o (forked.role ▸ hrole)
    · rcases (child_spec hp).2.2 with hasync | hsync
      · rw [hrole] at hasync
        cases hasync
      · rw [hrole] at hsync
        injection hsync with ho
        subst ho
        have hlt := (h.order.counted _ (running_mem runs)).trans_le (mem_newborn hp).1
        exact ⟨hlt, _, forked.owner_mem, rfl, ⟨b.tasks, rfl⟩⟩
    · exact howner p (hby p hp) o hrole
  · intro q hq hqjoins
    rcases forked.mem_cases hq with rfl | hq | hq
    · exact forked.owner_missing runs hchildless
    · exact absurd hqjoins (child_spec hq).1
    · have hid := h.order.bystander_ne runs hq
      rw [forked.barrier, if_neg hid, forked.other_children runs hid]
      exact h.missing q (hby q hq) hqjoins
  · intro q hq hqjoins
    rw [forked.blocked] at hq
    rw [forked.barrier, if_neg (h.order.not_blocked runs q hq)]
    exact h.waits q hq hqjoins
  · intro o w hw
    rw [forked.barrier] at hw
    rw [forked.blocked]
    split_ifs at hw with ho
    · cases hw
    · exact h.waiter o w hw
  · rw [forked.blocked]
    exact h.blocked

/-! ### Ends -/

/-- An arrival after which nobody is missing wakes all that wait, and any other wakes nobody. -/
lemma arrive_spec {ε : Type} (failure : Option ε) (b : Barrier ε) :
    (b.arrive failure).1.remaining = b.remaining - 1 ∧
    (b.arrive failure).1.failures = b.failures ++ failure.toList ∧
    (b.remaining - 1 = 0 ∧ (b.arrive failure).1.waiters = [] ∧ (b.arrive failure).2 = b.waiters ∨
      b.remaining - 1 ≠ 0 ∧ (b.arrive failure).1.waiters = b.waiters ∧
        (b.arrive failure).2 = []) := by
  unfold Barrier.arrive
  dsimp only
  split_ifs with h
  · exact ⟨h.symm, rfl, .inl ⟨h, rfl, rfl⟩⟩
  · exact ⟨rfl, rfl, .inr ⟨h, rfl, rfl⟩⟩

/-- How a report leaves the barriers, and whom it wakes. -/
lemma report_spec (a : Activity) (env : Environment) (c : Completion) :
    ((∀ o, a.role ≠ .synchronous o) ∧ (a.report env c).world.barriers = env.barriers ∧
      (a.report env c).woken = []) ∨
    ∃ o failure, a.role = .synchronous o ∧
      (a.report env c).world = env.setBarrier o ((env.barrier o).arrive failure).1 ∧
      (a.report env c).woken = ((env.barrier o).arrive failure).2 ∧
      (failure = none ↔ ∃ result, c.result = .ok result) := by
  unfold report
  cases hrole : a.role with
  | request number => exact .inl ⟨by simp, rfl, rfl⟩
  | asynchronous =>
    refine .inl ⟨by simp, ?_, rfl⟩
    cases c.result <;> rfl
  | synchronous owner =>
    refine .inr ⟨owner, _, rfl, rfl, rfl, ?_⟩
    cases c.result <;> simp

/-- A report of a request adds its completion, and no other report adds any. -/
lemma report_completions (a : Activity) (env : Environment) (c : Completion) :
    (∃ n, a.role = .request n ∧ (a.report env c).world.completions = (n, c) :: env.completions) ∨
      (∀ n, a.role ≠ .request n) ∧ (a.report env c).world.completions = env.completions := by
  rw [report]
  cases hrole : a.role with
  | request n => exact .inl ⟨n, rfl, rfl⟩
  | asynchronous =>
    refine .inr ⟨by simp, ?_⟩
    cases c.result <;> rfl
  | synchronous owner => exact .inr ⟨by simp, rfl⟩

section Ends

variable {env : Environment} {c : Completion} (turned : Turned k k' id (a.report env c))

include turned

/-- A process that ends leaves the bystanders behind. -/
lemma Turned.ends_processes : k'.processes.Perm k.bystanders := by
  have := turned.processes
  rw [report_ends.1, report_ends.2] at this
  exact this

lemma Turned.ends_blocked : k'.blocked = k.blocked.filter (·.1 ∉ (a.report env c).woken) := by
  rw [turned.blocked, report_ends.2]
  exact List.append_nil _

lemma Turned.ends_spawned : k'.spawned = k.spawned := by
  rw [turned.spawned, report_ends.1]
  rfl

variable (runs : k.running = some (id, a))

include runs

/-- Its owner has one child less. -/
lemma Turned.ends_forkedBy (o : ProcessId) : forkedBy o k.processes =
    forkedBy o k'.processes + if a.role = .synchronous o then 1 else 0 := by
  rw [processes_eq runs, forkedBy_cons, forkedBy_perm o turned.ends_processes]

lemma Turned.ends_mem (order : k.Orderly) {p : ProcessId × Activity} (hp : p ∈ k'.processes) :
    p ∈ k.processes ∧ p.1 ≠ id := by
  have hby := turned.ends_processes.mem_iff.mp hp
  exact ⟨mem_processes_of_bystanders runs hby, order.bystander_ne runs hby⟩

variable (h : k.Joined)

include h

/-- The owners of those that are left are left, too. -/
lemma Turned.ends_owner (childless : ∀ p ∈ k.processes, p.2.role ≠ .synchronous id)
    {p : ProcessId × Activity} (hp : p ∈ k'.processes) {o : ProcessId}
    (hrole : p.2.role = .synchronous o) : o < p.1 ∧ ∃ q ∈ k'.processes, q.1 = o ∧ q.2.Joins := by
  obtain ⟨hlt, -, q, hq, hqo⟩ :=
    h.bystander_owner runs childless (turned.ends_mem runs h.order hp).1 hrole
  exact ⟨hlt, q, turned.ends_processes.mem_iff.mpr hq, hqo⟩

/-- A process that ends and that nobody waits for. -/
lemma Turned.joined_untold (childless : ∀ p ∈ k.processes, p.2.role ≠ .synchronous id)
    (role : ∀ o, a.role ≠ .synchronous o) (woken : (a.report env c).woken = [])
    (barrier : ∀ o, o ≠ id → k'.world.barrier o = k.world.barrier o)
    (own : (k'.world.barrier id).waiters = []) : k'.Joined := by
  have hids := turned.distinct h.order runs
  have hsame : k'.blocked = k.blocked := by
    rw [turned.ends_blocked, woken]
    simp
  refine ⟨⟨turned.lined, hids.1, hids.2⟩, ?_, ?_, ?_, ?_, ?_, hsame ▸ h.blocked⟩
  · exact fun p hp => h.settled p (turned.ends_mem runs h.order hp).1
  · exact fun p hp o hrole => turned.ends_owner runs h childless hp hrole
  · intro q hq hqjoins
    obtain ⟨hqk, hqid⟩ := turned.ends_mem runs h.order hq
    rw [barrier q.1 hqid, h.missing q hqk hqjoins, turned.ends_forkedBy runs, if_neg (role q.1),
      Nat.add_zero]
  · intro q hq hqjoins
    rw [hsame] at hq
    rw [barrier q.1 (h.order.not_blocked runs q hq)]
    exact h.waits q hq hqjoins
  · intro o w hw
    by_cases ho : o = id
    · rw [ho, own] at hw
      cases hw
    · rw [barrier o ho] at hw
      rw [hsame]
      exact h.waiter o w hw

/-! An owner that is told of the end of a child. -/

variable {o : ProcessId} {failure : Option InterpreterError} (role : a.role = .synchronous o)
  (barrier : ∀ o', o' ≠ id → k'.world.barrier o' =
    if o' = o then ((k.world.barrier o).arrive failure).1 else k.world.barrier o')
  (woken : (a.report env c).woken = ((k.world.barrier o).arrive failure).2)

omit turned runs in
include woken in
/-- Nobody but the owner waits at its barrier, so a report wakes nobody else. -/
lemma told_woken {w : ProcessId} (hw : w ∈ (a.report env c).woken) : w = o := by
  rw [woken] at hw
  rcases (arrive_spec failure (k.world.barrier o)).2.2 with ⟨-, -, hall⟩ | ⟨-, -, hnone⟩
  · rw [hall] at hw
    exact (h.waiter o w hw).1
  · rw [hnone] at hw
    cases hw

include role barrier in
/-- One process less is missing at the barrier of the owner. -/
lemma Turned.told_missing {q : ProcessId × Activity} (hq : q ∈ k'.processes)
    (hqjoins : q.2.Joins) : (k'.world.barrier q.1).remaining = forkedBy q.1 k'.processes := by
  obtain ⟨hqk, hqid⟩ := turned.ends_mem runs h.order hq
  have hmissing := h.missing q hqk hqjoins
  rw [turned.ends_forkedBy runs, role] at hmissing
  rw [barrier q.1 hqid]
  split_ifs with hqo
  · rw [hqo, if_pos rfl] at hmissing
    rw [hqo, (arrive_spec failure (k.world.barrier o)).1]
    omega
  · rw [if_neg (by simpa using fun h => hqo h.symm), Nat.add_zero] at hmissing
    exact hmissing

include barrier woken in
/-- Whoever is not woken waits as before. -/
lemma Turned.told_waits {q : ProcessId × Activity} (hq : q ∈ k'.blocked) (hqjoins : q.2.Joins) :
    (k'.world.barrier q.1).waiters = [q.1] ∧ (k'.world.barrier q.1).remaining ≠ 0 := by
  rw [turned.ends_blocked, List.mem_filter] at hq
  obtain ⟨hqk, hasleep⟩ := hq
  have hnotwoken : q.1 ∉ (a.report env c).woken := of_decide_eq_true hasleep
  have hqwaits := h.waits q hqk hqjoins
  rw [barrier q.1 (h.order.not_blocked runs q hqk)]
  split_ifs with hqo
  · rw [hqo] at hqwaits ⊢
    rw [woken, hqo] at hnotwoken
    obtain ⟨hremaining, -, ⟨-, -, hall⟩ | ⟨hmore, hsame, -⟩⟩ :=
      arrive_spec failure (k.world.barrier o)
    · rw [hall, hqwaits.1] at hnotwoken
      exact absurd List.mem_cons_self hnotwoken
    · exact ⟨hsame.trans hqwaits.1, hremaining ▸ hmore⟩
  · exact hqwaits

omit runs in
include barrier woken in
/-- Whoever still waits at a barrier is blocked there. -/
lemma Turned.told_waiter {o' w : ProcessId} (ho' : o' ≠ id)
    (hw : w ∈ (k'.world.barrier o').waiters) :
    w = o' ∧ ∃ q ∈ k'.blocked, q.1 = o' ∧ q.2.Joins := by
  rw [barrier o' ho'] at hw
  obtain ⟨hwo, q, hq, hqo, hqjoins, hasleep⟩ : w = o' ∧ ∃ q ∈ k.blocked, q.1 = o' ∧ q.2.Joins ∧
      q.1 ∉ (a.report env c).woken := by
    split_ifs at hw with hoo
    · subst hoo
      obtain ⟨-, -, ⟨-, hnone, -⟩ | ⟨-, hsame, hnobody⟩⟩ := arrive_spec failure (k.world.barrier o')
      · rw [hnone] at hw
        cases hw
      · rw [hsame] at hw
        obtain ⟨hwo, q, hq, hqo, hqjoins⟩ := h.waiter o' w hw
        refine ⟨hwo, q, hq, hqo, hqjoins, ?_⟩
        rw [woken, hnobody]
        exact List.not_mem_nil
    · obtain ⟨hwo, q, hq, hqo, hqjoins⟩ := h.waiter o' w hw
      refine ⟨hwo, q, hq, hqo, hqjoins, fun hwoken => ?_⟩
      exact hoo (hqo.symm.trans (told_woken h woken hwoken))
  refine ⟨hwo, q, ?_, hqo, hqjoins⟩
  rw [turned.ends_blocked]
  exact List.mem_filter.mpr ⟨hq, decide_eq_true hasleep⟩

include role barrier woken in
/-- A process that ends and whose owner learns of it. -/
lemma Turned.joined_told (childless : ∀ p ∈ k.processes, p.2.role ≠ .synchronous id)
    (own : (k'.world.barrier id).waiters = []) : k'.Joined := by
  have hids := turned.distinct h.order runs
  refine ⟨⟨turned.lined, hids.1, hids.2⟩, ?_, ?_, ?_, ?_, ?_, ?_⟩
  · exact fun p hp => h.settled p (turned.ends_mem runs h.order hp).1
  · exact fun p hp o hrole => turned.ends_owner runs h childless hp hrole
  · exact fun q hq hqjoins => turned.told_missing runs h role barrier hq hqjoins
  · exact fun q hq hqjoins => turned.told_waits runs h barrier woken hq hqjoins
  · intro o' w hw
    by_cases ho' : o' = id
    · rw [ho', own] at hw
      cases hw
    · exact turned.told_waiter h barrier woken ho' hw
  · intro q hq
    rw [turned.ends_blocked, List.mem_filter] at hq
    exact h.blocked q hq.1

end Ends

/-- A process that ends and whom nobody needs at a barrier of its own. -/
lemma Turned.joined_ends (h : k.Joined) (runs : k.running = some (id, a))
    (childless : ∀ p ∈ k.processes, p.2.role ≠ .synchronous id) {env : Environment}
    (barriers : ∀ o, o ≠ id → env.barrier o = k.world.barrier o)
    (own : (env.barrier id).waiters = []) {c : Completion}
    (turned : Turned k k' id (a.report env c)) : k'.Joined := by
  rcases report_spec a env c with ⟨role, hworld, woken⟩ | ⟨o, failure, role, hworld, woken, -⟩
  · have hbarrier : ∀ o, k'.world.barrier o = env.barrier o := fun o => by
      rw [turned.world]
      exact Environment.barrier_congr hworld o
    refine turned.joined_untold runs h childless role woken (fun o ho => ?_) ?_
    · exact (hbarrier o).trans (barriers o ho)
    · rw [hbarrier]
      exact own
  · obtain ⟨-, hid, -⟩ := h.bystander_owner runs childless (running_mem runs) role
    rw [barriers o hid] at hworld woken
    refine turned.joined_told runs h role (fun o' ho' => ?_) woken childless ?_
    · rw [turned.world, hworld, Environment.barrier_setBarrier, barriers o' ho']
    · rw [turned.world, hworld, Environment.barrier_setBarrier, if_neg hid.symm]
      exact own

/-! ### All turns -/

/-- The process that a completed demand wakes does not wait at a barrier. -/
def ReleasesServer (k : Kernel Environment Activity) (id : ProcessId) (a : Activity) : Prop :=
  ∀ load started rest, a.tasks = .release load started :: rest →
    ∀ w ∈ (k.world.resources.complete id load started).1,
      ∀ q ∈ k.blocked, q.1 = w → ¬ q.2.Joins

/-- **Every turn keeps barriers and processes in agreement.** -/
theorem Turned.joined_turn (h : k.Joined) (runs : k.running = some (id, a))
    (turned : Turned k k' id (a.turn d k.now id k.world)) (releases : ReleasesServer k id a) :
    k'.Joined := by
  have heffect := advance_effect d k.now id k.world
    (h.settled _ (running_mem runs))
  unfold turn at turned
  generalize a.advance d k.now id k.world = progress at heffect turned
  have hown := h.no_waiters runs
  cases heffect with
  | proceeds ha _ steady hb role =>
    exact turned.joined h runs rfl rfl (h.childless runs ha.not_joins) hb.not_joins hb.settled role
      (fun o _ => steady.barrier o) (by rw [steady.barrier]; exact hown) (by simp)
      (by simp [Next.waiting])
  | arrives ha _ hb role =>
    exact turned.joined h runs rfl rfl (h.childless runs ha.not_joins) hb.not_joins hb.settled role
      (fun o _ => rfl) hown (by simp) (by simp [Next.waiting])
  | granted ha _ _ barriers _ hb role =>
    exact turned.joined h runs rfl rfl (h.childless runs ha.not_joins) (before_not_joins (by simp))
      (before_settled hb _) role (fun o _ => Environment.barrier_congr barriers o)
      (by rw [Environment.barrier_congr barriers]; exact hown) (by simp) (by simp [Next.waiting])
  | queued ha _ _ barriers _ hb role =>
    refine turned.joined h runs rfl rfl (h.childless runs ha.not_joins) (before_not_joins (by simp))
      (before_settled hb _) role (fun o _ => Environment.barrier_congr barriers o)
      (by rw [Environment.barrier_congr barriers]; exact hown) (by simp) ?_
    intro p hp
    rw [List.mem_singleton.mp hp]
    exact ⟨_, _, rfl⟩
  | serves htasks steady hb role =>
    exact turned.joined h runs rfl rfl (h.childless runs (not_joins_of_tasks htasks (by simp)))
      (before_not_joins (by simp)) (before_settled hb _) role (fun o _ => steady.barrier o)
      (by rw [steady.barrier]; exact hown) (by simp) (by simp [Next.waiting])
  | completes htasks hcomplete barriers _ hb role =>
    refine turned.joined h runs rfl rfl (h.childless runs (not_joins_of_tasks htasks (by simp)))
      hb.not_joins hb.settled role (fun o _ => Environment.barrier_congr barriers o)
      (by rw [Environment.barrier_congr barriers]; exact hown) ?_ (by simp [Next.waiting])
    intro q hq hwoken
    refine releases _ _ _ htasks q.1 ?_ q hq rfl
    rw [hcomplete]
    simpa using hwoken
  | forks ha _ _ steady hb role =>
    exact turned.joined_forks h runs ha.not_joins hb (turned.forked steady role)
  | joins htasks hopen _ hb role =>
    refine turned.joined h runs rfl rfl (h.childless_of_open runs ⟨_, htasks⟩ hopen) hb.not_joins
      hb.settled role ?_ ?_ (by simp) (by simp [Next.waiting])
    · intro o ho
      dsimp only
      rw [Environment.barrier_dropBarrier, if_neg ho]
    · dsimp only
      rw [Environment.barrier_dropBarrier, if_pos rfl]
      rfl
  | awaits ha hmissing => exact turned.joined_awaits h runs ha hmissing
  | ends ha _ steady _ =>
    exact turned.joined_ends h runs (h.childless runs ha.not_joins) (fun o _ => steady.barrier o)
      (by rw [steady.barrier]; exact hown)
  | fails ha hopen _ _ _ =>
    refine turned.joined_ends h runs (h.childless_of_open runs ha hopen) ?_ ?_
    · intro o ho
      rw [Environment.barrier_dropBarrier, if_neg ho]
    · rw [Environment.barrier_dropBarrier, if_pos rfl]
      rfl

/-! ## Other events -/

lemma Quiet.joined (h : k.Joined) (quiet : Quiet (program d) k k') : k'.Joined := by
  have hbarrier : ∀ o, k'.world.barrier o = k.world.barrier o := by
    intro o
    rcases quiet.world with hworld | ⟨time, wakeups, hworld⟩
    · rw [hworld]
    · rw [hworld]
      rfl
  have hprocesses := quiet.processes
  refine ⟨quiet.orderly h.order, ?_, ?_, ?_, ?_, ?_, ?_⟩
  · rw [hprocesses]
    exact h.settled
  · rw [hprocesses]
    exact h.owner
  · simp only [hprocesses, hbarrier]
    exact h.missing
  · simp only [quiet.blocked, hbarrier]
    exact h.waits
  · simp only [quiet.blocked, hbarrier]
    exact h.waiter
  · rw [quiet.blocked]
    exact h.blocked

lemma initial_joined (env : Environment) (h : env.barriers = []) :
    (initial env : Kernel Environment Activity).Joined := by
  have hbarrier : ∀ o, (initial env : Kernel Environment Activity).world.barrier o =
      Barrier.new 0 := by
    intro o
    change env.barrier o = _
    rw [Environment.barrier, h]
    rfl
  have hprocesses : (initial env : Kernel Environment Activity).processes = [] := rfl
  refine ⟨initial_orderly env, ?_, ?_, ?_, ?_, ?_, ?_⟩
  · simp [hprocesses]
  · simp [hprocesses]
  · simp [hprocesses]
  · simp [initial]
  · simp [hbarrier, Barrier.new]
  · simp [initial]

lemma mapWorld_joined (h : k.Joined) {f : Environment → Environment}
    (barriers : (f k.world).barriers = k.world.barriers) : (k.mapWorld f).Joined := by
  have hbarrier : ∀ o, (k.mapWorld f).world.barrier o = k.world.barrier o :=
    fun o => Environment.barrier_congr barriers o
  refine ⟨mapWorld_orderly f h.order, h.settled, h.owner, ?_, ?_, ?_, h.blocked⟩
  · simp only [hbarrier]
    exact h.missing
  · simp only [hbarrier]
    exact h.waits
  · simp only [hbarrier]
    exact h.waiter

/-- A request that enters is nobody's child and joins nobody. -/
lemma spawn_joined (h : k.Joined) (awake : a.Awake) {number : Nat} (role : a.role = .request number) :
    (k.spawn a).Joined := by
  have hperm := spawn_processes a k
  have hcases : ∀ p ∈ (k.spawn a).processes, p = (k.spawned, a) ∨ p ∈ k.processes := fun p hp =>
    List.mem_cons.mp (hperm.mem_iff.mp hp)
  refine ⟨spawn_orderly a h.order, ?_, ?_, ?_, h.waits, h.waiter, h.blocked⟩
  · intro p hp
    rcases hcases p hp with rfl | hp
    · exact awake.settled
    · exact h.settled p hp
  · intro p hp o hrole
    rcases hcases p hp with rfl | hp
    · rw [role] at hrole
      cases hrole
    · obtain ⟨hlt, q, hq, hqo⟩ := h.owner p hp o hrole
      exact ⟨hlt, q, hperm.mem_iff.mpr (List.mem_cons_of_mem _ hq), hqo⟩
  · intro q hq hjoins
    rcases hcases q hq with rfl | hq
    · exact absurd hjoins awake.not_joins
    · rw [forkedBy_perm _ hperm, forkedBy_cons, role, if_neg (by simp), Nat.add_zero]
      exact h.missing q hq hjoins

/-! ## No deadlock -/

/-- **Joins do not lock each other.**  When no process can run and none waits for a server, none is
left at all. -/
theorem Joined.all_finished (h : k.Joined) (agenda : k.agenda = [])
    (served : ∀ q ∈ k.blocked, ∀ load, ¬ q.2.Serves load) : k.processes = [] := by
  have hblocked : k.processes = k.blocked := by
    rw [processes, agenda]
    rfl
  -- Each process left waits for a child, which is left too and has a larger identity.
  have hnone : ∀ n, ∀ q ∈ k.processes, k.spawned - q.1 = n → False := by
    intro n
    induction n using Nat.strong_induction_on with
    | _ n ih =>
      intro q hq hn
      have hq' : q ∈ k.blocked := hblocked ▸ hq
      rcases h.blocked q hq' with hjoins | ⟨load, hserves⟩
      · have hchildren : forkedBy q.1 k.processes ≠ 0 := by
          rw [← h.missing q hq hjoins]
          exact (h.waits q hq' hjoins).2
        rw [Ne, forkedBy_eq_zero] at hchildren
        push Not at hchildren
        obtain ⟨p, hp, hrole⟩ := hchildren
        have hlt : q.1 < p.1 := (h.owner p hp q.1 hrole).1
        have hp' : p.1 < k.spawned := h.order.counted p hp
        exact ih (k.spawned - p.1) (hn ▸ Nat.sub_lt_sub_left (hlt.trans hp') hlt) p hp rfl
      · exact served q hq' load hserves
  exact List.eq_nil_iff_forall_not_mem.mpr fun q hq => hnone _ q hq rfl

end Kernel

end ServiceSim

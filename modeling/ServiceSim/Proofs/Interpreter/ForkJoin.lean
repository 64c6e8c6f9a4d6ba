import ServiceSim.Proofs.Interpreter.Queues
import ServiceSim.Proofs.Interpreter.StackDiscipline

/-!
# From a fork to its join

A process forks, and then waits for the processes that it has forked synchronously.  Meanwhile all
others run, requests enter, runs end and begin again.  `Forking` follows a kernel from the step of
the fork to the step in which the process goes on, and lists the ends of the synchronous processes
in the order in which they come (`Kernel.arrival?`).  Nothing else of what happens is recorded, so
whatever is said in terms of this list does not depend on the asynchronous processes.

The invariant `Waiting` relates the list to the barrier: it has collected the failures in the list,
and the process is on the agenda only at the time of the last end.  `forks_join` reads off what a
fork does: the process is not touched while somebody is missing; when all have arrived, it is ready
at the time of the last end, before the clock can move; and it goes on with the frames and contexts
it had before, or fails with the failure that came first.
-/

namespace ServiceSim

open Activity

/-! ## The two ends of a fork -/

namespace Activity

/-- The activity as it is when the fork that it begins with is over.  It has to finish the action and
to walk on. -/
def afterFork (a : Activity) : Activity :=
  match a.tasks with
  | .walk behavior depth (action :: actions) :: tasks =>
    { a with tasks := .finish action :: .walk behavior depth actions :: tasks }
  | _ => a

variable {a : Activity} {env env' : Environment} {now : SimTime} {id owner : ProcessId}
  {d : Deployment} {turn : Turn Environment Activity} {c : Completion}
  {asynchronous synchronous : List Behavior}

/-- A fork changes nothing of the process but what it has to do. -/
lemma afterFork_keeps (a : Activity) :
    a.afterFork.stack = a.stack ∧ a.afterFork.contexts = a.contexts ∧ a.afterFork.role = a.role := by
  unfold afterFork
  split <;> exact ⟨rfl, rfl, rfl⟩

/-- The step that forks. -/
lemma advance_forking (d : Deployment) (now : SimTime) (id : ProcessId) (env : Environment)
    (settled : a.Settled) (forking : a.forking = some (asynchronous, synchronous)) :
    a.afterFork.Awake ∧ ∃ env', env.Steady env' ∧ a.advance d now id env =
      .goes ⟨env'.setBarrier id (Barrier.new synchronous.length), [],
        a.afterFork.children id asynchronous synchronous, .proceed (a.afterFork.before .join)⟩ := by
  obtain ⟨name, role, tasks, stack, contexts, result⟩ := a
  obtain ⟨behavior, depth, action, actions, rest, rfl, hkind⟩ := forking_spec forking
  have hrest : Awake ⟨name, role, rest, stack, contexts, result⟩ := settled
  refine ⟨before_awake (before_awake hrest rfl) rfl, _,
    ((Environment.Steady.refl env).note (.actionEntered action)).note
      (.behaviorsForked action asynchronous.length synchronous.length), ?_⟩
  simp only [advance, performTask, walkOn, perform, hkind]
  rfl

/-- A step that goes on leaves the barriers of others alone and wakes only processes to which it
gives a server. -/
lemma advance_goes_elsewhere (settled : a.Settled) (elsewhere : owner ≠ id)
    (goes : a.advance d now id env = .goes turn) :
    turn.world.barrier owner = env.barrier owner ∧
      ∀ w ∈ turn.woken, ∃ load started rest, a.tasks = .release load started :: rest ∧
        w ∈ (env.resources.complete id load started).1 := by
  have heffect := advance_effect d now id env settled
  rw [goes] at heffect
  cases heffect with
  | proceeds _ _ steady => exact ⟨steady.barrier owner, by simp⟩
  | arrives => exact ⟨rfl, by simp⟩
  | granted _ _ _ barriers => exact ⟨Environment.barrier_congr barriers owner, by simp⟩
  | queued _ _ _ barriers => exact ⟨Environment.barrier_congr barriers owner, by simp⟩
  | serves _ steady => exact ⟨steady.barrier owner, by simp⟩
  | completes htasks hcomplete barriers =>
    refine ⟨Environment.barrier_congr barriers owner, fun w hw => ⟨_, _, _, htasks, ?_⟩⟩
    rw [hcomplete]
    simpa using hw
  | forks _ _ _ steady =>
    refine ⟨?_, by simp⟩
    dsimp only
    rw [Environment.barrier_setBarrier, if_neg elsewhere, steady.barrier]
  | joins =>
    refine ⟨?_, by simp⟩
    dsimp only
    rw [Environment.barrier_dropBarrier, if_neg elsewhere]
  | awaits =>
    refine ⟨?_, by simp⟩
    dsimp only
    rw [Environment.barrier_setBarrier, if_neg elsewhere]

/-- An end leaves the barriers of others alone until it is reported. -/
lemma advance_ends_elsewhere (settled : a.Settled) (elsewhere : owner ≠ id)
    (ends : a.advance d now id env = .ends env' c) :
    env'.barrier owner = env.barrier owner := by
  have heffect := advance_effect d now id env settled
  rw [ends] at heffect
  cases heffect with
  | ends _ _ steady => exact steady.barrier owner
  | fails =>
    rw [Environment.barrier_dropBarrier, if_neg elsewhere]

/-- What enters from outside serves a request and waits for nobody. -/
lemma Enters.request (h : a.Enters) : a.Awake ∧ ∃ number, a.role = .request number := by
  cases h with
  | interpreting name number context root behavior =>
    exact ⟨by simp [Awake, Activity.interpreting, Task.isPause], number, rfl⟩
  | ofRequest number context arrival inputs behavior =>
    exact ⟨ofRequest_awake _ _ _ _ _, number, rfl⟩

end Activity

/-! ## Arrivals -/

/-- The end of a process that has been forked synchronously. -/
structure Arrival where
  /-- The process. -/
  process : ProcessId
  /-- Its name. -/
  name : String
  /-- When it ended. -/
  time : SimTime
  /-- Its result frame, or the error that ended it. -/
  result : Except InterpreterError Frame

/-- What the forking process is told, if the process has failed. -/
def Arrival.failure (x : Arrival) : Option InterpreterError :=
  match x.result with
  | .ok _ => none
  | .error e => some (.fork x.name e)

/-- The time of the last arrival, or else the time of the fork. -/
def Arrival.last (start : SimTime) (arrivals : List Arrival) : SimTime :=
  (arrivals.getLast?.map Arrival.time).getD start

/-- What a fork returns: the failure of the process that failed first, or none. -/
def Arrival.outcome (arrivals : List Arrival) : Option InterpreterError :=
  arrivals.findSome? Arrival.failure

lemma Arrival.last_append (start : SimTime) (arrivals : List Arrival) (x : Arrival) :
    Arrival.last start (arrivals ++ [x]) = x.time := by
  rw [last, List.getLast?_append, List.getLast?_singleton]
  rfl

namespace Kernel

/-- The end that comes in the next step, if it is the end of a process that has been forked
synchronously by an owner. -/
def arrival? (d : Deployment) (owner : ProcessId) (k : Kernel Environment Activity) :
    Option Arrival :=
  match k.running with
  | none => none
  | some (id, a) =>
    if a.role = .synchronous owner then
      match a.advance d k.now id k.world with
      | .goes _ => none
      | .ends _ c => some ⟨id, a.name, k.now, c.result⟩
    else none

/-! ## Histories -/

/-- What happens to a kernel between steps: a run ends, a request enters, or something is noted on
which no process depends. -/
inductive Interlude (d : Deployment) :
    Kernel Environment Activity → Kernel Environment Activity → Prop where
  | rests {stop : Option SimTime} {k k' : Kernel Environment Activity} :
      k.step (program d) stop = .ends k' → Interlude d k k'
  | enters {k : Kernel Environment Activity} {a : Activity} : a.Enters → Interlude d k (k.spawn a)
  | notes {k : Kernel Environment Activity} (env : Environment) :
      k.world.Steady env → Interlude d k (k.mapWorld fun _ => env)

/-- The kernels that come about from one without processes, where no server is taken. -/
inductive Emerges (d : Deployment) : Kernel Environment Activity → Prop where
  | starts (env : Environment) : env.barriers = [] →
      (∀ key s, env.resources.line key = some s → 0 < s.count ∧ s.serving = [] ∧ s.waiting = []) →
      Emerges d (initial env)
  | goes {stop : Option SimTime} {k k' : Kernel Environment Activity} : Emerges d k →
      k.step (program d) stop = .goes k' → Emerges d k'
  | interlude {k k' : Kernel Environment Activity} : Emerges d k → Interlude d k k' → Emerges d k'

/-- The kernels between a fork and its join, with the arrivals so far.  The process `id` forks at
the time `start`, and until it runs with nobody missing. -/
inductive Forking (d : Deployment) (id : ProcessId) (a : Activity) (start : SimTime)
    (asynchronous synchronous : List Behavior) :
    Kernel Environment Activity → List Arrival → Prop where
  /-- The process forks. -/
  | forks {stop : Option SimTime} {k k' : Kernel Environment Activity} : k.Emerges d →
      k.running = some (id, a) → a.forking = some (asynchronous, synchronous) → k.now = start →
      k.step (program d) stop = .goes k' → Forking d id a start asynchronous synchronous k' []
  /-- A step is taken, but not by the process when nobody is missing. -/
  | goes {stop : Option SimTime} {k k' : Kernel Environment Activity} {arrivals : List Arrival} :
      Forking d id a start asynchronous synchronous k arrivals →
      (∀ b, k.running = some (id, b) → arrivals.length < synchronous.length) →
      k.step (program d) stop = .goes k' →
      Forking d id a start asynchronous synchronous k' (arrivals ++ (k.arrival? d id).toList)
  /-- Something else happens. -/
  | interlude {k k' : Kernel Environment Activity} {arrivals : List Arrival} :
      Forking d id a start asynchronous synchronous k arrivals → Interlude d k k' →
      Forking d id a start asynchronous synchronous k' arrivals

variable {d : Deployment} {k k' : Kernel Environment Activity} {id other : ProcessId}
  {a b c : Activity} {start : SimTime} {arrivals : List Arrival} {total : Nat}
  {asynchronous synchronous : List Behavior}

lemma Interlude.queued (h : k.Queued) (interlude : Interlude d k k') : k'.Queued := by
  cases interlude with
  | rests hstep => exact (step_ends h.joined.order hstep).1.queued h
  | enters ha =>
    obtain ⟨hawake, number, hrole⟩ := ha.request
    exact spawn_queued h hawake hrole
  | notes env steady => exact mapWorld_queued h steady

lemma Emerges.queued (h : k.Emerges d) : k.Queued := by
  induction h with
  | starts env barriers lines => exact initial_queued env barriers lines
  | goes _ hstep ih => exact step_queued ih hstep
  | interlude _ interlude ih => exact interlude.queued ih

lemma Emerges.next (h : k.Emerges d) : (k.next d).Emerges d := by
  rw [Kernel.next]
  cases hstep : k.step (program d) none with
  | goes k' => exact h.goes hstep
  | ends k' => exact h.interlude (.rests hstep)

lemma Interlude.event (h : Interlude d k k') : Event d k k' := by
  cases h with
  | rests hstep => exact .rests hstep
  | enters ha => exact .enters ha
  | notes env steady => exact .answers env steady.barriers

lemma Emerges.reached (h : k.Emerges d) : k.Reached d := by
  induction h with
  | starts env barriers => exact ⟨env, barriers, .refl⟩
  | goes _ hstep ih =>
    obtain ⟨env, barriers, hevents⟩ := ih
    exact ⟨env, barriers, hevents.tail (.goes hstep)⟩
  | interlude _ interlude ih =>
    obtain ⟨env, barriers, hevents⟩ := ih
    exact ⟨env, barriers, hevents.tail interlude.event⟩

/-- A process after something else has happened. -/
lemma Interlude.mem_processes (order : k.Orderly) (interlude : Interlude d k k')
    (begun : id < k.spawned) : (id, b) ∈ k'.processes ↔ (id, b) ∈ k.processes := by
  cases interlude with
  | rests hstep => rw [(step_ends order hstep).1.processes]
  | enters ha =>
    rw [(spawn_processes _ k).mem_iff, List.mem_cons]
    refine ⟨?_, .inr⟩
    rintro (h | h)
    · exact absurd (congrArg Prod.fst h) (Nat.ne_of_lt begun)
    · exact h
  | notes env steady => exact Iff.rfl

/-! ## Waiting for arrivals -/

/-- **A process between a fork and its join.**  It waits for a number of others, of which some have
arrived. -/
structure Waiting (id : ProcessId) (b : Activity) (start : SimTime) (total : Nat)
    (k : Kernel Environment Activity) (arrivals : List Arrival) : Prop where
  queued : k.Queued
  present : (id, b) ∈ k.processes
  failures : (k.world.barrier id).failures = arrivals.filterMap Arrival.failure
  counted : (k.world.barrier id).remaining + arrivals.length = total
  reached : Arrival.last start arrivals ≤ k.now
  prompt : ∀ x ∈ k.agenda, x.process = id → x.time = Arrival.last start arrivals ∧
    (k.running = some (id, b) ∨ arrivals.length = total)
  atOnce : total = 0 → k.running = some (id, b)

/-- The appointment of the process that runs. -/
lemma Orderly.appointment {World Task : Type} {k : Kernel World Task} {id : ProcessId} {a : Task}
    (order : k.Orderly) (runs : k.running = some (id, a)) {x : Appointment Task} (hx : x ∈ k.agenda)
    (hid : x.process = id) : x = ⟨id, a, k.now⟩ := by
  rw [agenda_running runs] at hx
  rcases List.mem_cons.mp hx with rfl | hx
  · rfl
  · have hby : (x.process, x.task) ∈ k.bystanders := List.mem_append_left _ (List.mem_map_of_mem hx)
    exact absurd hid (order.bystander_ne runs hby)

lemma Waiting.remaining (h : Waiting id b start total k arrivals) (hb : b.Joins) :
    (k.world.barrier id).remaining = forkedBy id k.processes :=
  h.queued.joined.missing _ h.present hb

/-- The step that forks. -/
lemma Turned.waiting_forks (h : k.Queued) (runs : k.running = some (id, a))
    (forking : a.forking = some (asynchronous, synchronous))
    (turned : Turned k k' id (a.turn d k.now id k.world)) :
    Waiting id (a.afterFork.before .join) k.now synchronous.length k' [] := by
  have hqueued := turned.queued h runs
  obtain ⟨-, env, -, hadvance⟩ :=
    advance_forking d k.now id k.world (h.joined.settled _ (running_mem runs)) forking
  unfold turn at turned
  rw [hadvance] at turned
  have hruns : k'.running = some (id, a.afterFork.before .join) := by
    rw [turned.applied]
    rfl
  have hbarrier : k'.world.barrier id = Barrier.new synchronous.length := by
    rw [turned.world]
    dsimp only
    rw [Environment.barrier_setBarrier, if_pos rfl]
  refine ⟨hqueued, running_mem hruns, ?_, ?_, ?_, ?_, fun _ => hruns⟩
  · rw [hbarrier]
    rfl
  · rw [hbarrier]
    rfl
  · rw [turned.now]
    exact le_refl _
  · intro x hx hid
    rw [hqueued.joined.order.appointment hruns hx hid, turned.now]
    exact ⟨rfl, .inl hruns⟩

/-- A turn of the process while somebody is missing. -/
lemma Waiting.advance (h : Waiting id b start total k arrivals) (hb : b.Joins)
    (missing : arrivals.length < total) :
    b.advance d k.now id k.world =
      .goes ⟨k.world.setBarrier id ((k.world.barrier id).await id), [], [], .block b⟩ := by
  have hremaining : (k.world.barrier id).remaining ≠ 0 := by
    have := h.counted
    omega
  obtain ⟨rest, htasks⟩ := hb
  obtain ⟨name, role, tasks, stack, contexts, result⟩ := b
  dsimp only at htasks
  subst htasks
  have hclosed : (k.world.barrier id).isOpen = false := by
    simpa [Barrier.isOpen] using hremaining
  simp only [Activity.advance, performTask, joinForked, hclosed]
  rfl

/-- The process finds that somebody is missing. -/
lemma Turned.waiting_awaits (h : Waiting id b start total k arrivals) (hb : b.Joins)
    (runs : k.running = some (id, b)) (missing : arrivals.length < total)
    (turned : Turned k k' id (b.turn d k.now id k.world)) :
    Waiting id b start total k' arrivals := by
  have hqueued := turned.queued h.queued runs
  unfold turn at turned
  rw [h.advance hb missing] at turned
  have hbarrier : k'.world.barrier id = (k.world.barrier id).await id := by
    rw [turned.world]
    dsimp only
    rw [Environment.barrier_setBarrier, if_pos rfl]
  refine ⟨hqueued, ?_, ?_, ?_, ?_, ?_, fun none => absurd missing (by omega)⟩
  · exact turned.processes.mem_iff.mpr (List.mem_append_left _ List.mem_cons_self)
  · rw [hbarrier]
    exact h.failures
  · rw [hbarrier]
    exact h.counted
  · rw [turned.now]
    exact h.reached
  · intro x hx hid
    rcases turned.mem_agenda rfl hx with hx | ⟨q, -, hq, -⟩ | hx
    · cases hx
    · cases hq
    · have hby : (x.process, x.task) ∈ k.bystanders :=
        List.mem_append_left _ (List.mem_map_of_mem hx)
      exact absurd hid (h.queued.joined.order.bystander_ne runs hby)

/-- What a turn of another process means to one that waits. -/
lemma Turned.arrival_cases (h : k.Queued) (runs : k.running = some (other, c))
    (elsewhere : id ≠ other) (waits : ∀ q ∈ k.blocked, q.1 = id → q.2.Joins)
    (turned : Turned k k' other (c.turn d k.now other k.world)) :
    (k.arrival? d id = none ∧ k'.world.barrier id = k.world.barrier id ∧
      ∀ q ∈ k.blocked, q.1 = id → q.1 ∉ (c.turn d k.now other k.world).woken) ∨
    ∃ x, k.arrival? d id = some x ∧ x.time = k.now ∧ c.role = .synchronous id ∧
      k'.world.barrier id = ((k.world.barrier id).arrive x.failure).1 ∧
      (c.turn d k.now other k.world).woken = ((k.world.barrier id).arrive x.failure).2 := by
  have hsettled := h.joined.settled _ (running_mem runs)
  have hworld := turned.world
  rw [arrival?, runs]
  dsimp only
  cases hadvance : c.advance d k.now other k.world with
  | goes turn =>
    obtain ⟨hbarrier, hwoken⟩ := advance_goes_elsewhere hsettled elsewhere hadvance
    rw [Activity.turn, hadvance] at hworld ⊢
    refine .inl ⟨by split_ifs <;> rfl, by rw [hworld, hbarrier], fun q hq hid hmem => ?_⟩
    obtain ⟨load, started, rest, htasks, hgiven⟩ := hwoken q.1 hmem
    exact h.releasesServer runs load started rest htasks q.1 hgiven q hq rfl (waits q hq hid)
  | ends env completion =>
    have hbarrier := advance_ends_elsewhere hsettled elsewhere hadvance
    rw [Activity.turn, hadvance] at hworld ⊢
    dsimp only at hworld ⊢
    by_cases hrole : c.role = .synchronous id
    · right
      refine ⟨_, if_pos hrole, rfl, hrole, ?_, ?_⟩
      · rw [hworld, report, hrole]
        dsimp only
        rw [Environment.barrier_setBarrier, if_pos rfl, hbarrier]
        rfl
      · rw [report, hrole]
        dsimp only
        rw [hbarrier]
        rfl
    · left
      rw [if_neg hrole]
      rcases report_spec c env completion with ⟨-, hbarriers, hwoken⟩ |
        ⟨o, failure, hro, hset, hwoken, -⟩
      · refine ⟨rfl, ?_, fun q _ _ hmem => ?_⟩
        · rw [hworld, Environment.barrier_congr hbarriers, hbarrier]
        · rw [hwoken] at hmem
          cases hmem
      · have ho : id ≠ o := by
          rintro rfl
          exact hrole hro
        refine ⟨rfl, ?_, fun q hq hid hmem => ?_⟩
        · rw [hworld, hset, Environment.barrier_setBarrier, if_neg ho, hbarrier]
        · -- Nobody but the owner waits at its barrier.
          have hother : o ≠ other := Nat.ne_of_lt (h.joined.owner _ (running_mem runs) o hro).1
          rw [hwoken, advance_ends_elsewhere hsettled hother hadvance] at hmem
          have hwaiter : q.1 ∈ (k.world.barrier o).waiters := by
            rcases (arrive_spec failure (k.world.barrier o)).2.2 with ⟨-, -, hall⟩ | ⟨-, -, hnone⟩
            · exact hall ▸ hmem
            · rw [hnone] at hmem
              cases hmem
          exact ho (hid.symm.trans (h.joined.waiter o q.1 hwaiter).1)

/-- Another process runs, so it is not the one that waits, and somebody was missing at the fork. -/
lemma Waiting.not_running (h : Waiting id b start total k arrivals)
    (runs : k.running = some (other, c)) (elsewhere : id ≠ other) :
    (∀ b', k.running ≠ some (id, b')) ∧ total ≠ 0 := by
  have hnot : ∀ b', k.running ≠ some (id, b') := by
    intro b' hruns
    rw [runs] at hruns
    injection hruns with hruns
    exact elsewhere (congrArg Prod.fst hruns).symm
  exact ⟨hnot, fun hzero => hnot b (h.atOnce hzero)⟩

/-- The process that waits is still there after a turn of another one. -/
lemma Turned.present_other (h : Waiting id b start total k arrivals)
    (runs : k.running = some (other, c)) (elsewhere : id ≠ other) {turn : Turn Environment Activity}
    (turned : Turned k k' other turn) : (id, b) ∈ k'.processes :=
  (turned.mem_processes_other runs elsewhere (h.queued.joined.order.counted _ h.present)).mpr
    h.present

/-- After a turn of another process its appointments are old ones, unless the turn wakes it. -/
lemma Turned.agenda_other (h : Waiting id b start total k arrivals) (elsewhere : id ≠ other)
    {turn : Turn Environment Activity} (turned : Turned k k' other turn)
    {x : Appointment Activity} (hx : x ∈ k'.agenda) (hid : x.process = id) :
    x ∈ k.agenda ∨ x.time = k.now ∧ ∃ q ∈ k.blocked, q.1 = id ∧ q.1 ∈ turn.woken := by
  have hmem := turned.agenda.mem_iff.mp hx
  simp only [List.mem_append] at hmem
  rcases hmem with ((hnext | hwoken) | hborn) | hothers
  · exact absurd (hid.symm.trans (appointments_process _ _ x hnext)) elsewhere
  · obtain ⟨q, hq, rfl⟩ := List.mem_map.mp hwoken
    obtain ⟨hblocked, hmem⟩ := List.mem_filter.mp hq
    exact .inr ⟨rfl, q, hblocked, hid, of_decide_eq_true hmem⟩
  · obtain ⟨p, hp, rfl⟩ := List.mem_map.mp hborn
    have hcounted := h.queued.joined.order.counted _ h.present
    have hfirst := (mem_newborn hp).1
    exact absurd hcounted (Nat.not_lt.mpr (hid ▸ hfirst))
  · exact .inl (mem_agenda_of_others hothers)

/-- A turn of another process that does not arrive. -/
lemma Turned.waiting_unmoved (h : Waiting id b start total k arrivals)
    (runs : k.running = some (other, c)) (elsewhere : id ≠ other)
    (turned : Turned k k' other (c.turn d k.now other k.world))
    (barrier : k'.world.barrier id = k.world.barrier id)
    (asleep : ∀ q ∈ k.blocked, q.1 = id → q.1 ∉ (c.turn d k.now other k.world).woken) :
    Waiting id b start total k' arrivals := by
  obtain ⟨hnot, htotal⟩ := h.not_running runs elsewhere
  refine ⟨turned.queued h.queued runs, turned.present_other h runs elsewhere, barrier ▸ h.failures,
    barrier ▸ h.counted, ?_, fun y hy hid => ?_, fun hzero => absurd hzero htotal⟩
  · rw [turned.now]
    exact h.reached
  · rcases turned.agenda_other h elsewhere hy hid with hold | ⟨-, q, hq, hqid, hmem⟩
    · obtain ⟨hlast, hruns | hall⟩ := h.prompt y hold hid
      · exact absurd hruns (hnot b)
      · exact ⟨hlast, .inr hall⟩
    · exact absurd hmem (asleep q hq hqid)

/-- A turn of another process that arrives. -/
lemma Turned.waiting_arrives (h : Waiting id b start total k arrivals) (hb : b.Joins)
    (runs : k.running = some (other, c)) (elsewhere : id ≠ other)
    (turned : Turned k k' other (c.turn d k.now other k.world)) {x : Arrival}
    (time : x.time = k.now) (role : c.role = .synchronous id)
    (barrier : k'.world.barrier id = ((k.world.barrier id).arrive x.failure).1)
    (woken : (c.turn d k.now other k.world).woken =
      ((k.world.barrier id).arrive x.failure).2) :
    Waiting id b start total k' (arrivals ++ [x]) := by
  obtain ⟨hnot, htotal⟩ := h.not_running runs elsewhere
  have hpositive : (k.world.barrier id).remaining ≠ 0 := by
    rw [h.remaining hb, Ne, forkedBy_eq_zero]
    exact fun hnone => hnone _ (running_mem runs) role
  obtain ⟨hremaining, hfailures, hwakes⟩ := arrive_spec x.failure (k.world.barrier id)
  have hcounted := h.counted
  refine ⟨turned.queued h.queued runs, turned.present_other h runs elsewhere, ?_, ?_, ?_,
    fun y hy hid => ?_, fun hzero => absurd hzero htotal⟩
  · rw [barrier, hfailures, h.failures, List.filterMap_append]
    cases hfailure : x.failure <;> simp [hfailure]
  · rw [barrier, hremaining, List.length_append, List.length_singleton]
    omega
  · rw [Arrival.last_append, time, turned.now]
  · rw [Arrival.last_append, time, List.length_append, List.length_singleton]
    rcases turned.agenda_other h elsewhere hy hid with hold | ⟨hnow, q, hq, hqid, hmem⟩
    · obtain ⟨-, hruns | hall⟩ := h.prompt y hold hid
      · exact absurd hruns (hnot b)
      · omega
    · refine ⟨hnow, .inr ?_⟩
      rw [woken] at hmem
      rcases hwakes with ⟨hlast, -, -⟩ | ⟨-, -, hnobody⟩
      · omega
      · rw [hnobody] at hmem
        cases hmem

/-- A turn of another process. -/
lemma Turned.waiting_other (h : Waiting id b start total k arrivals) (hb : b.Joins)
    (runs : k.running = some (other, c)) (elsewhere : id ≠ other)
    (turned : Turned k k' other (c.turn d k.now other k.world)) :
    Waiting id b start total k' (arrivals ++ (k.arrival? d id).toList) := by
  have hsame : ∀ q ∈ k.blocked, q.1 = id → q.2.Joins := by
    intro q hq hid
    rw [h.queued.joined.order.unique (List.mem_append_right _ hq) h.present hid]
    exact hb
  rcases turned.arrival_cases h.queued runs elsewhere hsame with ⟨hnone, barrier, asleep⟩ |
    ⟨x, hsome, time, role, barrier, woken⟩
  · rw [hnone, Option.toList_none, List.append_nil]
    exact turned.waiting_unmoved h runs elsewhere barrier asleep
  · rw [hsome, Option.toList_some]
    exact turned.waiting_arrives h hb runs elsewhere time role barrier woken

/-! ## Other events -/

lemma Quiet.waiting (h : Waiting id b start total k arrivals) (quiet : Quiet (program d) k k') :
    Waiting id b start total k' arrivals := by
  have hbarrier : k'.world.barrier id = k.world.barrier id := by
    rcases quiet.world with hworld | ⟨time, wakeups, hworld⟩
    · rw [hworld]
    · rw [hworld]
      rfl
  have hidle : k.running ≠ some (id, b) := by
    rw [quiet.idle]
    simp
  refine ⟨quiet.queued h.queued, quiet.processes ▸ h.present, hbarrier ▸ h.failures,
    hbarrier ▸ h.counted, h.reached.trans quiet.now, ?_, fun hzero => absurd (h.atOnce hzero) hidle⟩
  rw [quiet.agenda]
  intro x hx hid
  obtain ⟨hlast, hruns | hall⟩ := h.prompt x hx hid
  · exact absurd hruns hidle
  · exact ⟨hlast, .inr hall⟩

lemma Interlude.waiting (h : Waiting id b start total k arrivals) (interlude : Interlude d k k') :
    Waiting id b start total k' arrivals := by
  have hqueued := interlude.queued h.queued
  cases interlude with
  | rests hstep => exact (step_ends h.queued.joined.order hstep).1.waiting h
  | @enters _ a ha =>
    refine ⟨hqueued, ?_, h.failures, h.counted, h.reached, ?_, h.atOnce⟩
    · exact (spawn_processes a k).mem_iff.mpr (List.mem_cons_of_mem _ h.present)
    · intro x hx hid
      rcases List.mem_cons.mp ((spawn_agenda a k).mem_iff.mp hx) with rfl | hx
      · exact absurd hid (Nat.ne_of_gt (h.queued.joined.order.counted _ h.present))
      · exact h.prompt x hx hid
  | notes env steady =>
    have hbarrier := steady.barrier id
    exact ⟨hqueued, h.present, by rw [mapWorld, hbarrier, h.failures],
      by rw [mapWorld, hbarrier, h.counted], h.reached, h.prompt, h.atOnce⟩

/-- Every kernel between a fork and its join is one in which the process waits. -/
lemma Forking.waiting (h : Forking d id a start asynchronous synchronous k arrivals) :
    Waiting id (a.afterFork.before .join) start synchronous.length k arrivals := by
  have hjoins : (a.afterFork.before .join).Joins := ⟨_, rfl⟩
  induction h with
  | forks emerges runs forking now hstep =>
    have hqueued := emerges.queued
    subst now
    exact (step_turned hqueued.joined.order runs hstep).waiting_forks hqueued runs forking
  | @goes stop k k' arrivals _ missing hstep ih =>
    rcases step_cases ih.queued.joined.order hstep with quiet | ⟨other, c, runs, turned⟩
    · have hnone : k.arrival? d id = none := by
        rw [arrival?, quiet.idle]
      rw [hnone, Option.toList_none, List.append_nil]
      exact quiet.waiting ih
    · by_cases hother : id = other
      · subst hother
        have hsame := ih.queued.joined.order.unique (running_mem runs) ih.present rfl
        injection hsame with _ hc
        subst hc
        have hadvance := ih.advance (d := d) hjoins (missing _ runs)
        have hnone : k.arrival? d id = none := by
          rw [arrival?, runs]
          dsimp only
          rw [hadvance]
          split_ifs <;> rfl
        rw [hnone, Option.toList_none, List.append_nil]
        exact turned.waiting_awaits ih hjoins runs (missing _ runs)
      · exact turned.waiting_other ih hjoins runs hother
  | interlude _ interlude ih => exact interlude.waiting ih

/-! ## The join -/

/-- When all have arrived, the process is ready at the time of the last arrival. -/
lemma Waiting.ready (h : Waiting id b start total k arrivals) (hb : b.Joins)
    (all : arrivals.length = total) :
    k.now = Arrival.last start arrivals ∧ ⟨id, b, k.now⟩ ∈ k.agenda := by
  have hremaining : (k.world.barrier id).remaining = 0 := by
    have := h.counted
    omega
  rcases (mem_processes _).mp h.present with ⟨time, hx⟩ | hblocked
  · obtain ⟨hlast, -⟩ := h.prompt _ hx rfl
    have hnow : k.now = Arrival.last start arrivals :=
      le_antisymm (hlast ▸ h.queued.joined.order.now_le hx) h.reached
    refine ⟨hnow, ?_⟩
    rw [hnow, ← hlast]
    exact hx
  · exact absurd hremaining (h.queued.joined.waits _ hblocked hb).2

/-- The turn of the process when all have arrived. -/
lemma Waiting.advance_joined (h : Waiting id (a.before .join) start total k arrivals)
    (all : arrivals.length = total) :
    (a.before .join).advance d k.now id k.world = match Arrival.outcome arrivals with
      | none => a.goOn (k.world.dropBarrier id)
      | some e => a.abort k.now (k.world.dropBarrier id) e := by
  have hremaining : (k.world.barrier id).remaining = 0 := by
    have := h.counted
    omega
  have hopen : (k.world.barrier id).isOpen = true := by
    simpa [Barrier.isOpen] using hremaining
  have hcollect : (k.world.barrier id).collect.1 = Arrival.outcome arrivals := by
    rw [Barrier.collect, h.failures, List.head?_filterMap]
    rfl
  change a.joinForked k.now id k.world = _
  simp only [joinForked, hopen, if_true, hcollect]
  cases Arrival.outcome arrivals <;> rfl

/-- A run that returns without a time to stop at comes to the join: all arrive, and then the process
runs. -/
lemma Forking.comes_to_join (h : Forking d id a start asynchronous synchronous k arrivals)
    {fuel : Nat} (hrun : k.run (program d) none fuel = some k') :
    ∃ k₁ more b, Relation.ReflTransGen (fun x y => x.step (program d) none = .goes y) k k₁ ∧
      Forking d id a start asynchronous synchronous k₁ (arrivals ++ more) ∧
      (arrivals ++ more).length = synchronous.length ∧ k₁.running = some (id, b) := by
  induction fuel generalizing k arrivals with
  | zero => cases hrun
  | succ fuel ih =>
    have hwaiting := h.waiting
    by_cases hjoin : arrivals.length = synchronous.length ∧ ∃ b, k.running = some (id, b)
    · obtain ⟨hall, b, runs⟩ := hjoin
      exact ⟨k, [], b, .refl, by rwa [List.append_nil], by rwa [List.append_nil], runs⟩
    · rw [run] at hrun
      cases hstep : k.step (program d) none with
      | ends k₁ =>
        -- A process that waits would be left when the run ends.
        obtain ⟨-, hagenda⟩ := (step_ends hwaiting.queued.joined.order hstep).2 rfl
        have hpresent := hwaiting.present
        rw [hwaiting.queued.all_finished hagenda] at hpresent
        cases hpresent
      | goes k₁ =>
        rw [hstep] at hrun
        have hmissing : ∀ b, k.running = some (id, b) → arrivals.length < synchronous.length := by
          intro b runs
          have hcounted := hwaiting.counted
          have hne : arrivals.length ≠ synchronous.length := fun hall => hjoin ⟨hall, b, runs⟩
          omega
        obtain ⟨k₂, more, b, hsteps, hforking, hall, runs⟩ := ih (h.goes hmissing hstep) hrun
        rw [List.append_assoc] at hforking hall
        exact ⟨k₂, _, b, .head hstep hsteps, hforking, hall, runs⟩

/-- **From a fork to its join.**  Between the two, the process has its frames and contexts and stays
as the fork has left it, and the synchronous processes that it has forked are still there or have
arrived.  While some are missing, its turns do nothing but wait.  When all have arrived, it is ready
at the time of the last arrival, and no time passes until it runs; if there is none to wait for, it
keeps running.  It then goes on, or fails as the process that failed first.  A run that returns
without a time to stop at comes to this join. -/
theorem forks_join (h : Forking d id a start asynchronous synchronous k arrivals) :
    a.afterFork.stack = a.stack ∧ a.afterFork.contexts = a.contexts ∧
    (id, a.afterFork.before .join) ∈ k.processes ∧
    forkedBy id k.processes + arrivals.length = synchronous.length ∧
    (arrivals.length < synchronous.length → ∀ b, k.running = some (id, b) →
      b.advance d k.now id k.world =
        .goes ⟨k.world.setBarrier id ((k.world.barrier id).await id), [], [], .block b⟩) ∧
    (synchronous = [] → k.running = some (id, a.afterFork.before .join)) ∧
    (arrivals.length = synchronous.length →
      k.now = Arrival.last start arrivals ∧
      ⟨id, a.afterFork.before .join, k.now⟩ ∈ k.agenda ∧
      (∀ stop k', k.step (program d) stop ≠ .ends k') ∧
      ∀ b, k.running = some (id, b) →
        b.advance d k.now id k.world = match Arrival.outcome arrivals with
          | none => a.afterFork.goOn (k.world.dropBarrier id)
          | some e => a.afterFork.abort k.now (k.world.dropBarrier id) e) ∧
    ∀ fuel k', k.run (program d) none fuel = some k' → ∃ k₁ more b,
      Relation.ReflTransGen (fun x y => x.step (program d) none = .goes y) k k₁ ∧
      Forking d id a start asynchronous synchronous k₁ (arrivals ++ more) ∧
      (arrivals ++ more).length = synchronous.length ∧ k₁.running = some (id, b) := by
  have hwaiting := h.waiting
  have hjoins : (a.afterFork.before .join).Joins := ⟨_, rfl⟩
  have hself : ∀ b, k.running = some (id, b) → b = a.afterFork.before .join := by
    intro b runs
    have hsame := hwaiting.queued.joined.order.unique (running_mem runs) hwaiting.present rfl
    exact congrArg Prod.snd hsame
  obtain ⟨hstack, hcontexts, -⟩ := afterFork_keeps a
  refine ⟨hstack, hcontexts, hwaiting.present, ?_, ?_, ?_, ?_, fun _ _ => h.comes_to_join⟩
  · rw [← hwaiting.remaining hjoins]
    exact hwaiting.counted
  · intro missing b runs
    rw [hself b runs]
    exact hwaiting.advance hjoins missing
  · rintro rfl
    exact hwaiting.atOnce rfl
  · intro all
    obtain ⟨hnow, hagenda⟩ := hwaiting.ready hjoins all
    refine ⟨hnow, hagenda, fun stop k' hstep => ?_, ?_⟩
    · exact lt_irrefl _ (step_ends_later hwaiting.queued.joined.order hstep hagenda)
    · intro b runs
      rw [hself b runs]
      exact hwaiting.advance_joined all

/-- A process that forks three others and waits for two of them, of which the first fails, as does
the one for which nobody waits. -/
theorem forks_join_failing :
    ∃ (d : Deployment) (a b : Activity) (k : Kernel Environment Activity) (start : SimTime)
      (asynchronous synchronous : List Behavior) (arrivals : List Arrival),
      Forking d 0 a start asynchronous synchronous k arrivals ∧
      asynchronous.length = 1 ∧ arrivals.length = 2 ∧ synchronous.length = 2 ∧
      k.running = some (0, b) ∧
      a.afterFork.stack = a.stack ∧ a.afterFork.contexts = a.contexts ∧
      (0, a.afterFork.before .join) ∈ k.processes ∧
      forkedBy 0 k.processes + arrivals.length = synchronous.length ∧
      (arrivals.length < synchronous.length → ∀ b, k.running = some (0, b) →
        b.advance d k.now 0 k.world =
          .goes ⟨k.world.setBarrier 0 ((k.world.barrier 0).await 0), [], [], .block b⟩) ∧
      (synchronous = [] → k.running = some (0, a.afterFork.before .join)) ∧
      (arrivals.length = synchronous.length →
        k.now = Arrival.last start arrivals ∧
        ⟨0, a.afterFork.before .join, k.now⟩ ∈ k.agenda ∧
        (∀ stop k', k.step (program d) stop ≠ .ends k') ∧
        ∀ b, k.running = some (0, b) →
          b.advance d k.now 0 k.world = match Arrival.outcome arrivals with
            | none => a.afterFork.goOn (k.world.dropBarrier 0)
            | some e => a.afterFork.abort k.now (k.world.dropBarrier 0) e) ∧
      ∀ fuel k', k.run (program d) none fuel = some k' → ∃ k₁ more b,
        Relation.ReflTransGen (fun x y => x.step (program d) none = .goes y) k k₁ ∧
        Forking d 0 a start asynchronous synchronous k₁ (arrivals ++ more) ∧
        (arrivals ++ more).length = synchronous.length ∧ k₁.running = some (0, b) := by
  let d : Deployment := ⟨⟨"", [], [], [], [], [], []⟩, rfl⟩
  let broken : Behavior := ⟨"broken", [⟨"b0", "", some "b1", .start⟩, ⟨"b1", "", none, .internal []⟩]⟩
  let idle : Behavior := ⟨"idle", [⟨"i0", "", none, .start⟩]⟩
  let split : Behavior := ⟨"split", [⟨"s0", "", some "s1", .start⟩,
    ⟨"s1", "", none, .fork [broken] [broken, idle]⟩]⟩
  let env : Environment := .initial (.ofWords []) ⟨[]⟩
  let k₀ : Kernel Environment Activity :=
    (initial env).spawn (.interpreting "p" 0 "entry" (.empty 7) split)
  -- A sweep begins, the process is dispatched, enters its behavior, starts and reaches the fork.
  let k₁ := ((((k₀.next d).next d).next d).next d).next d
  have hemerges : Emerges d k₀ :=
    .interlude (.starts env rfl (by intro key s hs; cases hs)) (.enters (.interpreting _ _ _ _ _))
  have hstep : k₁.step (program d) none = .goes (k₁.next d) := rfl
  have hforking : Forking d 0 _ _ [broken] [broken, idle] (k₁.next d) [] :=
    .forks hemerges.next.next.next.next.next rfl rfl rfl hstep
  have hreturns : ((k₁.next d).run (program d) none 60).isSome = true := by decide +kernel
  obtain ⟨k', hrun⟩ := Option.isSome_iff_exists.mp hreturns
  obtain ⟨k, arrivals, b, -, hjoin, hall, runs⟩ := hforking.comes_to_join hrun
  exact ⟨d, _, b, k, _, _, _, _, hjoin, rfl, hall, rfl, runs, forks_join hjoin⟩

end Kernel

end ServiceSim
